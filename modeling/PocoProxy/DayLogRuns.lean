/-
What the log files hold after any calls.

A write goes to the file of the name that it builds when that file is open or can be opened
(`write_effect`). A file that was empty when it was opened holds the header and then the
texts of the records, whatever happens (`header_first`). A record is lost exactly when the
name is the one that the appender remembers and the file is not open, and this is so after
a failed `open`, as long as the name stays the same (`log_keeps_iff`).
-/
import PocoProxy.DayLog
import PocoProxy.Lib.Runs

set_option autoImplicit false

namespace PocoProxy.DayLog.OneDayFileAppender

open PocoProxy.CStrings PocoProxy.Runs

variable {Record : Type} {layout : Layout Record} {a a' : OneDayFileAppender Record}

theorem buildFileName_ne_nil (a : OneDayFileAppender Record) (t : Tm) :
    a.buildFileName t ≠ [] := by
  have hroot := a.rootPath_ne_nil
  simp only [buildFileName, ne_eq, List.append_eq_nil_iff, hroot, false_and, not_false_eq_true]

/-! ## What a write does -/

/-- What is written when a file is opened, before the record. -/
def opening (layout : Layout Record) (contents : Bytes) : Bytes :=
  if contents.length = 0 then layout.header else []

/-- The calls that open a file. -/
def openingCalls (fileName : NString) (contents : Bytes) : List (Call Record) :=
  .opened fileName contents.length :: if contents.length = 0 then [.header fileName] else []

/-- What a write of a record makes of the appender, with the file name that it builds. -/
inductive Effect (layout : Layout Record) (a : OneDayFileAppender Record) (record : Record)
    (fileName : NString) : OneDayFileAppender Record → Prop
  | lost (hname : a.m_fileName = fileName) (hfile : a.m_file = none) :
      Effect layout a record fileName a
  | appended (hname : a.m_fileName = fileName) {f : NString} (hfile : a.m_file = some f) :
      Effect layout a record fileName
        { a with
          content := Function.update a.content f (some (a.contents f ++ layout.text record))
          calls := a.calls ++ [.record f record] }
  | failed (hname : a.m_fileName ≠ fileName) :
      Effect layout a record fileName
        { a with
          m_file := none
          m_fileName := fileName
          calls := a.calls ++ [.openFailed fileName] }
  | opened (hname : a.m_fileName ≠ fileName) :
      Effect layout a record fileName
        { a with
          m_file := some fileName
          m_fileName := fileName
          content := Function.update a.content fileName (some (a.contents fileName
            ++ opening layout (a.contents fileName) ++ layout.text record))
          calls := a.calls ++ openingCalls fileName (a.contents fileName)
            ++ [.record fileName record] }

/-- A name that is not the one remembered, and an `open` that works. -/
theorem openLogFile_of_succeeds {t : Tm} (hname : a.m_fileName ≠ a.buildFileName t) :
    a.openLogFile layout t true
      = { a with
          m_file := some (a.buildFileName t)
          m_fileName := a.buildFileName t
          content := Function.update a.content (a.buildFileName t)
            (some (a.contents (a.buildFileName t)
              ++ opening layout (a.contents (a.buildFileName t))))
          calls := a.calls
            ++ openingCalls (a.buildFileName t) (a.contents (a.buildFileName t)) } := by
  rw [openLogFile, if_pos hname]
  generalize a.buildFileName t = fileName
  change (if some (a.contents fileName).length = some 0 then _ else _) = _
  rw [opening, openingCalls]
  by_cases hempty : (a.contents fileName).length = 0
  · -- the header is written to the file that has just been opened
    rw [if_pos (congrArg some hempty), if_pos hempty, if_pos hempty, fileWrite_of_some rfl]
    simp only [contents, Function.update_self, Option.getD_some, Function.update_idem,
      fileClose, List.append_assoc, List.singleton_append]
  · rw [if_neg (fun h => hempty (Option.some.inj h)), if_neg hempty, if_neg hempty,
      List.append_nil]
    rfl

theorem write_effect (layout : Layout Record) (a : OneDayFileAppender Record) (record : Record)
    (t : Tm) (succeeds : Bool) :
    Effect layout a record (a.buildFileName t) (a.write layout record t succeeds) := by
  rw [write]
  by_cases hname : a.m_fileName = a.buildFileName t
  · have hopen : a.openLogFile layout t succeeds = a := if_neg (not_not.mpr hname)
    rw [hopen]
    cases hfile : a.m_file with
    | none =>
        rw [fileWrite_of_none hfile]
        exact .lost hname hfile
    | some f =>
        rw [fileWrite_of_some hfile]
        exact .appended hname hfile
  · cases succeeds with
    | false =>
        have hopen : a.openLogFile layout t false
            = { a with
                m_file := none
                m_fileName := a.buildFileName t
                calls := a.calls ++ [.openFailed (a.buildFileName t)] } := if_pos hname
        rw [hopen]
        exact .failed hname
    | true =>
        have heffect : Effect layout a record (a.buildFileName t) _ := .opened hname
        rw [openLogFile_of_succeeds hname, fileWrite_of_some rfl]
        simpa only [contents, Function.update_self, Option.getD_some, Function.update_idem]
          using heffect

/-! ## What is in the files -/

/-- What a call writes to a file as a record. -/
def recordText (layout : Layout Record) (fileName : NString) : Call Record → Bytes
  | .record f record => if f = fileName then layout.text record else []
  | _ => []

/-- The texts of the records written to a file. -/
def texts (layout : Layout Record) (fileName : NString) (calls : List (Call Record)) : Bytes :=
  calls.flatMap (recordText layout fileName)

theorem texts_append (layout : Layout Record) (fileName : NString)
    (calls made : List (Call Record)) :
    texts layout fileName (calls ++ made)
      = texts layout fileName calls ++ texts layout fileName made := List.flatMap_append

theorem texts_record (layout : Layout Record) (fileName f : NString) (record : Record) :
    texts layout fileName [.record f record]
      = if f = fileName then layout.text record else [] := by
  rw [texts, List.flatMap_singleton, recordText]

theorem opened_not_mem_record {fileName f : NString} {fileSize : ℕ} {record : Record} :
    .opened fileName fileSize ∉ [Call.record f record] := by
  simp

/-- No record is written when a file is opened. -/
theorem texts_openingCalls (layout : Layout Record) (fileName f : NString) (contents : Bytes) :
    texts layout fileName (openingCalls f contents) = [] := by
  rw [openingCalls]
  split <;> rfl

theorem opened_not_mem_openingCalls {fileName f : NString} (hne : fileName ≠ f) (fileSize : ℕ)
    (contents : Bytes) :
    (.opened fileName fileSize : Call Record) ∉ openingCalls f contents := by
  rw [openingCalls]
  split <;> simp [hne]

/-- A file holds what was in it and the texts of the records; and where it was empty when it
was opened, what was in it is the header. -/
def HeaderFirst (layout : Layout Record) (a : OneDayFileAppender Record) (fileName : NString) :
    Prop :=
  ∃ before, a.contents fileName = before ++ texts layout fileName a.calls ∧
    (.opened fileName 0 ∈ a.calls → before = layout.header ∧ a.content fileName ≠ none)

/-- What holds of the appender and the files at any time. -/
structure Sound (layout : Layout Record) (a : OneDayFileAppender Record) : Prop where
  handle : ∀ f, a.m_file = some f → a.m_fileName = f
  closed : a.m_file = none → a.m_fileName = [] ∨ .openFailed a.m_fileName ∈ a.calls
  files : ∀ fileName, HeaderFirst layout a fileName

theorem sound_construct (rootPath szPath : NString) (content : NString → Option Bytes) :
    Sound layout (construct rootPath szPath content) where
  handle f h := by cases h
  closed _ := Or.inl rfl
  files fileName := ⟨_, (List.append_nil _).symm, fun h => absurd h List.not_mem_nil⟩

/-- What is not written to does not change. -/
theorem HeaderFirst.of_other {fileName : NString} {made : List (Call Record)}
    (h : HeaderFirst layout a fileName) (hcontent : a'.content fileName = a.content fileName)
    (hcalls : a'.calls = a.calls ++ made) (htexts : texts layout fileName made = [])
    (hopened : .opened fileName 0 ∉ made) : HeaderFirst layout a' fileName := by
  obtain ⟨before, hbefore, hheader⟩ := h
  refine ⟨before, ?_, fun hmem => ?_⟩
  · rw [contents, hcontent, hcalls, texts_append, htexts, List.append_nil]
    exact hbefore
  · rw [hcalls] at hmem
    rw [hcontent]
    exact hheader ((List.mem_append.mp hmem).resolve_right hopened)

/-- The header is what an empty file starts with, and it is empty only before that. -/
theorem HeaderFirst.of_opening {fileName : NString} (h : HeaderFirst layout a fileName)
    (hcontent : a'.content fileName
      = some (a.contents fileName ++ opening layout (a.contents fileName)))
    (hcalls : a'.calls = a.calls ++ openingCalls fileName (a.contents fileName)) :
    HeaderFirst layout a' fileName := by
  obtain ⟨before, hbefore, hheader⟩ := h
  have htexts : texts layout fileName a'.calls = texts layout fileName a.calls := by
    rw [hcalls, texts_append, texts_openingCalls, List.append_nil]
  rw [HeaderFirst, contents_of_content hcontent, htexts, hcontent]
  by_cases hempty : (a.contents fileName).length = 0
  · -- nothing has been written to an empty file
    have hnil := List.length_eq_zero_iff.mp hempty
    have hnone : texts layout fileName a.calls = [] :=
      (List.append_eq_nil_iff.mp (hbefore.symm.trans hnil)).2
    refine ⟨layout.header, ?_, fun _ => ⟨rfl, Option.some_ne_none _⟩⟩
    rw [opening, if_pos hempty, hnil, hnone, List.append_nil, List.nil_append]
  · refine ⟨before, ?_, fun hmem => ?_⟩
    · rw [opening, if_neg hempty, List.append_nil, hbefore]
    · rw [hcalls, openingCalls, if_neg hempty] at hmem
      have hold := (List.mem_append.mp hmem).resolve_right fun h => by
        rw [List.mem_singleton, Call.opened.injEq] at h
        exact hempty h.2.symm
      exact ⟨(hheader hold).1, Option.some_ne_none _⟩

/-- A record behind what is in the file. -/
theorem HeaderFirst.of_appended {fileName : NString} {record : Record}
    (h : HeaderFirst layout a fileName)
    (hcontent : a'.content fileName = some (a.contents fileName ++ layout.text record))
    (hcalls : a'.calls = a.calls ++ [.record fileName record]) :
    HeaderFirst layout a' fileName := by
  obtain ⟨before, hbefore, hheader⟩ := h
  have htexts : texts layout fileName a'.calls
      = texts layout fileName a.calls ++ layout.text record := by
    rw [hcalls, texts_append, texts_record, if_pos rfl]
  refine ⟨before, ?_, fun hmem => ?_⟩
  · rw [contents_of_content hcontent, htexts, hbefore, List.append_assoc]
  · rw [hcalls] at hmem
    have hold := (List.mem_append.mp hmem).resolve_right opened_not_mem_record
    rw [hcontent]
    exact ⟨(hheader hold).1, Option.some_ne_none _⟩

/-- **One write**: whatever it does, the files hold what they should. -/
theorem sound_write {record : Record} {fileName : NString} (h : Sound layout a)
    (heffect : Effect layout a record fileName a') : Sound layout a' := by
  cases heffect with
  | lost hname hfile => exact h
  | @appended hname f hfile =>
      refine ⟨h.handle, fun hclosed => absurd hclosed ?_, fun g => ?_⟩
      · exact hfile ▸ Option.some_ne_none f
      · by_cases hg : g = f
        · subst hg
          exact (h.files g).of_appended (Function.update_self _ _ _) rfl
        · have htexts : texts layout g [.record f record] = [] := by
            rw [texts_record, if_neg (Ne.symm hg)]
          exact (h.files g).of_other (Function.update_of_ne hg _ _) rfl htexts
            opened_not_mem_record
  | failed hname =>
      refine ⟨fun f hf => absurd hf.symm (Option.some_ne_none f), fun _ => Or.inr ?_, fun g => ?_⟩
      · exact List.mem_append_right _ List.mem_cons_self
      · exact (h.files g).of_other rfl rfl rfl (by simp)
  | opened hname =>
      refine ⟨fun f hf => Option.some.inj hf,
        fun hclosed => absurd hclosed (Option.some_ne_none fileName), fun g => ?_⟩
      by_cases hg : g = fileName
      · subst hg
        -- the file is opened, and then the record is appended
        let b : OneDayFileAppender Record :=
          { a with
            content := Function.update a.content g
              (some (a.contents g ++ opening layout (a.contents g)))
            calls := a.calls ++ openingCalls g (a.contents g) }
        have hcontent : b.content g = some (a.contents g ++ opening layout (a.contents g)) :=
          Function.update_self _ _ _
        have hopened : HeaderFirst layout b g := (h.files g).of_opening hcontent rfl
        refine hopened.of_appended ?_ rfl
        rw [contents_of_content hcontent]
        exact Function.update_self _ _ _
      · refine (h.files g).of_other (Function.update_of_ne hg _ _) (List.append_assoc _ _ _) ?_ ?_
        · rw [texts_append, texts_openingCalls, texts_record, if_neg (Ne.symm hg)]
          rfl
        · rw [List.mem_append, not_or]
          exact ⟨opened_not_mem_openingCalls hg _ _, opened_not_mem_record⟩

theorem sound_step (h : Sound layout a) (l : Label Record) : Sound layout (step layout a l) := by
  cases l with
  | write record t succeeds => exact sound_write h (write_effect layout a record t succeeds)
  | setPrefixName name => exact ⟨h.handle, h.closed, h.files⟩
  | setSuffixName name => exact ⟨h.handle, h.closed, h.files⟩

/-! ## What is lost -/

/-- The text of a record is appended to a file, behind the header if there was nothing, and
nothing else is written. -/
def Appended (layout : Layout Record) (a a' : OneDayFileAppender Record) (record : Record)
    (fileName : NString) : Prop :=
  ∃ made head, a'.calls = a.calls ++ made ++ [.record fileName record]
    ∧ (head = [] ∨ (head = layout.header ∧ a.contents fileName = []))
    ∧ a'.content = Function.update a.content fileName
      (some (a.contents fileName ++ head ++ layout.text record))

/-- An `open` of a file has failed. -/
def OpenFailed (a a' : OneDayFileAppender Record) (fileName : NString) : Prop :=
  ∃ made, a'.calls = a.calls ++ made ∧ .openFailed fileName ∈ made

/-- A write loses a record only when it cannot open its file. -/
def Kept (layout : Layout Record) (a : OneDayFileAppender Record) :
    Label Record → OneDayFileAppender Record → Prop
  | .write record t _, a' =>
    Appended layout a a' record (a.buildFileName t) ∨ OpenFailed a a' (a.buildFileName t)
  | _, _ => True

/-- The name that would be built is the one remembered, and the file is not open. -/
def Stuck (a : OneDayFileAppender Record) (t : Tm) : Prop :=
  a.m_fileName = a.buildFileName t ∧ a.m_file = none

/-- A call does not meet a file that it takes for open. -/
def NotStuck (a : OneDayFileAppender Record) : Label Record → Prop
  | .write _ t _ => ¬Stuck a t
  | _ => True

instance Stuck.decidable (a : OneDayFileAppender Record) (t : Tm) : Decidable (Stuck a t) :=
  inferInstanceAs (Decidable (_ ∧ _))

/-- **One write** keeps its record, or fails to open the file, unless it is stuck. -/
theorem kept_iff_of_effect {record : Record} {fileName : NString} (h : Sound layout a)
    (heffect : Effect layout a record fileName a') :
    (Appended layout a a' record fileName ∨ OpenFailed a a' fileName)
      ↔ ¬(a.m_fileName = fileName ∧ a.m_file = none) := by
  cases heffect with
  | lost hname hfile =>
      refine iff_of_false ?_ (not_not.mpr ⟨hname, hfile⟩)
      rintro (⟨made, head, hcalls, -⟩ | ⟨made, hcalls, hmem⟩)
      · rw [List.append_assoc, List.self_eq_append_right] at hcalls
        exact List.append_ne_nil_of_right_ne_nil _ (List.cons_ne_nil _ _) hcalls
      · rw [List.self_eq_append_right] at hcalls
        rw [hcalls] at hmem
        exact List.not_mem_nil hmem
  | @appended hname f hfile =>
      have hf : fileName = f := hname.symm.trans (h.handle f hfile)
      refine iff_of_true (Or.inl ⟨[], [], ?_, Or.inl rfl, ?_⟩) ?_
      · rw [List.append_nil, hf]
      · rw [List.append_nil, hf]
      · exact fun hstuck => Option.some_ne_none f (hfile.symm.trans hstuck.2)
  | failed hname =>
      refine iff_of_true (Or.inr ⟨_, rfl, List.mem_cons_self⟩) ?_
      exact fun hstuck => hname hstuck.1
  | opened hname =>
      refine iff_of_true (Or.inl ⟨_, _, rfl, ?_, rfl⟩) fun hstuck => hname hstuck.1
      rw [opening]
      split
      next hempty => exact Or.inr ⟨rfl, List.length_eq_zero_iff.mp hempty⟩
      next => exact Or.inl rfl

theorem kept_iff (h : Sound layout a) (l : Label Record) :
    Kept layout a l (step layout a l) ↔ NotStuck a l := by
  cases l with
  | write record t succeeds =>
      exact kept_iff_of_effect h (write_effect layout a record t succeeds)
  | setPrefixName name => exact Iff.rfl
  | setSuffixName name => exact Iff.rfl

/-! ## Any calls -/

section Calls

variable (layout : Layout Record) (rootPath szPath : NString) (content : NString → Option Bytes)
  (labels : List (Label Record))

/-- The steps of the calls on a new appender. -/
def steps : List (Transition (OneDayFileAppender Record) (Label Record)) :=
  unroll (step layout) (construct rootPath szPath content) labels

theorem steps_kept_iff :
    (∀ u ∈ steps layout rootPath szPath content labels, Kept layout u.src u.label u.dst)
      ↔ ∀ u ∈ steps layout rootPath szPath content labels, NotStuck u.src u.label := by
  refine steps_iff (J := Sound layout) (Q := Kept layout) (C := NotStuck) ?_ ?_
    (sound_construct rootPath szPath content) (isRun_unroll_all _ _ _)
  · rintro a l _ h rfl -
    exact sound_step h l
  · rintro a l _ h rfl
    exact kept_iff h l

theorem sound_states :
    ∀ a ∈ states (construct rootPath szPath content)
      (steps layout rootPath szPath content labels), Sound layout a := by
  refine invariant_states (I := Sound layout) ?_ (sound_construct rootPath szPath content)
    (isRun_unroll_all _ _ _)
  rintro a l _ h rfl
  exact sound_step h l

/-- It is behind an `open` of the same file that a write is stuck. -/
theorem openFailed_of_stuck :
    ∀ a ∈ states (construct rootPath szPath content)
      (steps layout rootPath szPath content labels),
      ∀ t, Stuck a t → .openFailed (a.buildFileName t) ∈ a.calls := by
  rintro a ha t ⟨hname, hfile⟩
  have hfailed := (sound_states layout rootPath szPath content labels a ha).closed hfile
  rw [hname] at hfailed
  exact hfailed.resolve_left (buildFileName_ne_nil a t)

/-- **What the daily log loses.** Every write appends its record to the file of its name, or
fails to open it, exactly if no write is stuck behind an earlier failure; and at any time a
file that was empty when it was opened is one header and the texts of the records. -/
theorem log_keeps_iff :
    ((∀ u ∈ steps layout rootPath szPath content labels, Kept layout u.src u.label u.dst)
      ↔ ∀ u ∈ steps layout rootPath szPath content labels, NotStuck u.src u.label)
      ∧ ∀ a ∈ states (construct rootPath szPath content)
          (steps layout rootPath szPath content labels),
        ∀ fileName, .opened fileName 0 ∈ a.calls →
          a.content fileName = some (layout.header ++ texts layout fileName a.calls) := by
  refine ⟨steps_kept_iff layout rootPath szPath content labels, fun a ha fileName hopened => ?_⟩
  have hsound := sound_states layout rootPath szPath content labels a ha
  obtain ⟨before, hcontents, hheader⟩ := hsound.files fileName
  obtain ⟨rfl, hexists⟩ := hheader hopened
  obtain ⟨text, htext⟩ := Option.ne_none_iff_exists'.mp hexists
  rw [htext, ← hcontents, contents_of_content htext]

end Calls

/-- A byte order mark for the header, and an `x` for each record. -/
def sampleLayout : Layout Unit where
  formatterHeader := []
  format _ := tchars ['x']
  converterHeader text := [0xEF, 0xBB, 0xBF] ++ text.map UInt16.toUInt8
  convert text := text.map UInt16.toUInt8

/-- Two writes on the first day of 2024, the first with an `open` that fails: the second one
does not try again. -/
theorem second_record_lost :
    ¬∀ u ∈ steps sampleLayout (tchars ['D', ':', '\\']) [] (fun _ => none)
        [.write () ⟨124, 0, 1⟩ false, .write () ⟨124, 0, 1⟩ true],
      Kept sampleLayout u.src u.label u.dst := by
  rw [steps_kept_iff]
  intro h
  have hsecond := h _ (List.mem_cons_of_mem _ List.mem_cons_self)
  exact hsecond (by decide)

end PocoProxy.DayLog.OneDayFileAppender
