/-
What the constructors and the `Init`s of the payload structs leave of the memory.

`Initialization` lists the default constructors and the `Init` methods, and `run` is the
function of the header for each. Two runs on two contents of the memory end in the same
object exactly when the contents agree on what the function leaves alone (`run_eq_iff`).
All but two leave nothing: the constructor of `LCAS_RUN_SETUP_t` leaves every member, and
the `Init` of `LCAS_MIX_t` the five positions and the table.
-/
import PocoProxy.Payloads

set_option autoImplicit false

namespace PocoProxy.Payload

/-- `f` makes the same of every argument. -/
def Forgets {α : Type} (f : α → α) : Prop := ∃ value, ∀ before, f before = value

/-- The default constructors (`runSetup` is that of `LCAS_RUN_SETUP_t`) and the `Init`s. -/
inductive Initialization where
  | systemInform
  | systemConfig
  | runSetup
  | runSetupInit
  | auxEvent
  | auxEventInit
  | timeEvent
  | timeEventInit
  | mix
  | mixInit
  | state
  | diagData
  | special

namespace Initialization

def Object : Initialization → Type
  | systemInform => SYSTEM_INFORM_t
  | systemConfig => SYSTEM_CONFIG_t
  | runSetup | runSetupInit => LCAS_RUN_SETUP_t
  | auxEvent | auxEventInit => AUX_EVENT
  | timeEvent | timeEventInit => LCAS_TIME_EVENT_t
  | mix | mixInit => LCAS_MIX_t
  | state => LCAS_STATE_t
  | diagData => LCAS_DIAG_DATA_t
  | special => LCAS_SPECIAL_t

/-- The object after the constructor, or the `Init`, from the one that was there. -/
def run : (i : Initialization) → i.Object → i.Object
  | systemInform => SYSTEM_INFORM_t.construct
  | systemConfig => SYSTEM_CONFIG_t.construct
  | runSetup => LCAS_RUN_SETUP_t.construct
  | runSetupInit => LCAS_RUN_SETUP_t.Init
  | auxEvent => AUX_EVENT.construct
  | auxEventInit => AUX_EVENT.Init
  | timeEvent => LCAS_TIME_EVENT_t.construct
  | timeEventInit => LCAS_TIME_EVENT_t.Init
  | mix => LCAS_MIX_t.construct
  | mixInit => LCAS_MIX_t.Init
  | state => LCAS_STATE_t.construct
  | diagData => LCAS_DIAG_DATA_t.construct
  | special => LCAS_SPECIAL_t.construct

/-! ## What is left alone -/

/-- The positions and the table of a mix program. -/
abbrev MixEntries :=
  VIAL_POS_t × VIAL_POS_t × VIAL_POS_t × VIAL_POS_t × VIAL_POS_t × Vector LCAS_MIX_TABLE_t 20

def mixEntries (this : LCAS_MIX_t) : MixEntries :=
  (this.firstDestPos, this.reagentPosA, this.reagentPosB, this.reagentPosC, this.reagentPosD,
    this.mixTable)

/-- The members that the run does not write, as a type. -/
def Rest : Initialization → Type
  | runSetup => LCAS_RUN_SETUP_t
  | mixInit => MixEntries
  | _ => Unit

def rest : (i : Initialization) → i.Object → i.Rest
  | runSetup => fun this => this
  | mixInit => mixEntries
  | systemInform | systemConfig | runSetupInit | auxEvent | auxEventInit | timeEvent
  | timeEventInit | mix | state | diagData | special => fun _ => ()

/-- The elements of an array come out of a function that forgets its argument. -/
theorem map_eq_map {α β : Type} {n : ℕ} {f : α → β} (hf : ∀ a b, f a = f b)
    (v w : Vector α n) : v.map f = w.map f := by
  ext i hi
  simp only [Vector.getElem_map]
  exact hf v[i] w[i]

theorem timeEvent_init_eq (a b : LCAS_TIME_EVENT_t) : a.Init = b.Init := by
  have hevents : a.auxEvent.map AUX_EVENT.Init = b.auxEvent.map AUX_EVENT.Init :=
    map_eq_map (fun _ _ => rfl) a.auxEvent b.auxEvent
  simp only [LCAS_TIME_EVENT_t.Init, hevents]

theorem mix_construct_eq (a b : LCAS_MIX_t) : a.construct = b.construct := by
  have htable : a.mixTable.map LCAS_MIX_TABLE_t.construct
      = b.mixTable.map LCAS_MIX_TABLE_t.construct :=
    map_eq_map (fun _ _ => rfl) a.mixTable b.mixTable
  simp only [LCAS_MIX_t.construct, LCAS_MIX_t.Init, VIAL_POS_t.construct, htable]

theorem mix_init_eq_iff (a b : LCAS_MIX_t) : a.Init = b.Init ↔ mixEntries a = mixEntries b := by
  simp [LCAS_MIX_t.Init, mixEntries]

/-- Two runs end in one object exactly when they start with the same rest. -/
theorem run_eq_iff (i : Initialization) (a b : i.Object) :
    i.run a = i.run b ↔ i.rest a = i.rest b := by
  cases i with
  -- the two that leave something
  | runSetup => exact Iff.rfl
  | mixInit => exact mix_init_eq_iff a b
  | timeEvent => exact iff_of_true (timeEvent_init_eq _ _) rfl
  | timeEventInit => exact iff_of_true (timeEvent_init_eq a b) rfl
  | mix => exact iff_of_true (mix_construct_eq a b) rfl
  | systemInform | systemConfig | runSetupInit | auxEvent | auxEventInit | state | diagData
  | special => exact iff_of_true rfl rfl

/-! ## Which runs forget -/

instance (i : Initialization) : Nonempty i.Object := by
  cases i <;> dsimp only [Object] <;> infer_instance

theorem forgets_iff {α : Type} [Nonempty α] {f : α → α} : Forgets f ↔ ∀ a b, f a = f b := by
  constructor
  · rintro ⟨value, hvalue⟩ a b
    rw [hvalue a, hvalue b]
  · intro h
    obtain ⟨a⟩ := ‹Nonempty α›
    exact ⟨f a, fun b => h b a⟩

/-- A run setup in memory that held `onoff` in the place of `tempOnoff`. -/
def runSetupOf (onoff : UChar) : LCAS_RUN_SETUP_t :=
  { (default : LCAS_RUN_SETUP_t) with tempOnoff := onoff }

/-- A mix program whose reagent A was at `pos`. -/
def mixOf (pos : UInt) : LCAS_MIX_t := { (default : LCAS_MIX_t) with reagentPosA := ⟨pos⟩ }

theorem rest_runSetup_ne : rest runSetup (runSetupOf 0) ≠ rest runSetup (runSetupOf 1) := by
  intro h
  have honoff : (0 : UChar) = 1 := congrArg LCAS_RUN_SETUP_t.tempOnoff h
  exact absurd honoff (by decide)

theorem rest_mixInit_ne : rest mixInit (mixOf 0) ≠ rest mixInit (mixOf 1) := by
  intro h
  have hpos : (0 : UInt) = 1 := congrArg (fun entries : MixEntries => entries.2.1.pos) h
  exact absurd hpos (by decide)

/-- Every constructor and every `Init` makes one value of each member, whatever the memory
held, but for the constructor of a run setup and the `Init` of a mix program. -/
theorem run_forgets_iff (i : Initialization) :
    Forgets i.run ↔ i ≠ runSetup ∧ i ≠ mixInit := by
  rw [forgets_iff]
  simp only [run_eq_iff]
  constructor
  · intro h
    constructor
    · rintro rfl
      exact rest_runSetup_ne (h _ _)
    · rintro rfl
      exact rest_mixInit_ne (h _ _)
  · rintro ⟨hsetup, hmix⟩ a b
    cases i with
    | runSetup => exact absurd rfl hsetup
    | mixInit => exact absurd rfl hmix
    | systemInform | systemConfig | runSetupInit | auxEvent | auxEventInit | timeEvent
    | timeEventInit | mix | state | diagData | special => rfl

/-- A run setup keeps the byte that its memory held in the place of `tempOnoff`. -/
theorem runSetup_not_forgets : ¬ ∀ i : Initialization, Forgets i.run := by
  intro h
  exact rest_runSetup_ne ((run_eq_iff runSetup _ _).1 (forgets_iff.1 (h runSetup) _ _))

end Initialization
end PocoProxy.Payload
