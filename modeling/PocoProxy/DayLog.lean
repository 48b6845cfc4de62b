/-
The log file of a day.

`OneDayFileAppender` builds the name of its file at every write, from the prefix, the date
and the suffix, and opens another file when the name is not the one it remembers. It
remembers the name of the file that it has tried to open, whether that has worked or not.

A file is known by its name, and `util::File` by the name of the file that it has open.
Whether an `open` works, and what the clock says, comes with the call of `write`. What has
been done to the files is kept in a list of calls, without the calls of `write` on a file
that is not open, which do nothing. The mutex makes the writes come one after the other,
and the directory that the constructor makes is left out.
-/
import PocoProxy.CString
import Mathlib.Logic.Function.Basic

set_option autoImplicit false

namespace PocoProxy.DayLog

open PocoProxy.CStrings

/-- `util::nstring`. -/
abbrev NString := List TChar

/-- `std::string`. -/
abbrev Bytes := List UInt8

variable {Record : Type}

/-- The template arguments: what a formatter and a converter do. -/
structure Layout (Record : Type) where
  formatterHeader : NString
  format : Record → NString
  converterHeader : NString → Bytes
  convert : NString → Bytes

/-- `Converter::header(Formatter::header())`. -/
def Layout.header (layout : Layout Record) : Bytes :=
  layout.converterHeader layout.formatterHeader

/-- `Converter::convert(Formatter::format(record))`. -/
def Layout.text (layout : Layout Record) (record : Record) : Bytes :=
  layout.convert (layout.format record)

/-! ## The files -/

/-- A call on `util::File` that does something. -/
inductive Call (Record : Type) where
  | opened (fileName : NString) (fileSize : ℕ)
  | openFailed (fileName : NString)
  | header (fileName : NString)
  | record (fileName : NString) (record : Record)

/-- The appender, the files, and the calls so far. A root path is never empty. -/
structure OneDayFileAppender (Record : Type) where
  m_file : Option NString
  m_fileExt : NString
  m_fileName : NString
  m_rootPath : NString
  m_prefix : NString
  m_suffix : NString
  rootPath_ne_nil : m_rootPath ≠ []
  content : NString → Option Bytes
  calls : List (Call Record)

namespace OneDayFileAppender

/-- What is in a file; there is nothing in one that does not exist. -/
def contents (a : OneDayFileAppender Record) (fileName : NString) : Bytes :=
  (a.content fileName).getD []

theorem contents_of_content {a : OneDayFileAppender Record} {fileName : NString} {text : Bytes}
    (h : a.content fileName = some text) : a.contents fileName = text := by
  rw [contents, h, Option.getD_some]

/-- `m_file.close()`. -/
def fileClose (a : OneDayFileAppender Record) : OneDayFileAppender Record :=
  { a with m_file := none }

/-- `m_file.open(fileName)`: the size, or `none` for `size_t(-1)`. -/
def fileOpen (a : OneDayFileAppender Record) (fileName : NString) (succeeds : Bool) :
    OneDayFileAppender Record × Option ℕ :=
  if succeeds then
    let fileSize := (a.contents fileName).length
    ({ a with
        m_file := some fileName
        content := Function.update a.content fileName (some (a.contents fileName))
        calls := a.calls ++ [.opened fileName fileSize] }, some fileSize)
  else ({ a with m_file := none, calls := a.calls ++ [.openFailed fileName] }, none)

/-- `m_file.write(text)`: at the end of the file, if it is open. -/
def fileWrite (a : OneDayFileAppender Record) (text : Bytes) (call : NString → Call Record) :
    OneDayFileAppender Record :=
  match a.m_file with
  | none => a
  | some fileName =>
    { a with
      content := Function.update a.content fileName (some (a.contents fileName ++ text))
      calls := a.calls ++ [call fileName] }

theorem fileWrite_of_none {a : OneDayFileAppender Record} (h : a.m_file = none) (text : Bytes)
    (call : NString → Call Record) : a.fileWrite text call = a := by
  rw [fileWrite, h]

theorem fileWrite_of_some {a : OneDayFileAppender Record} {fileName : NString}
    (h : a.m_file = some fileName) (text : Bytes) (call : NString → Call Record) :
    a.fileWrite text call
      = { a with
          content := Function.update a.content fileName (some (a.contents fileName ++ text))
          calls := a.calls ++ [call fileName] } := by
  rw [fileWrite, h]

/-! ## The appender -/

/-- What is before the last backslash. -/
def beforeLastBackslash (path : NString) : NString :=
  ((path.reverse.dropWhile (· ≠ tchar '\\')).drop 1).reverse

/-- `m_rootPath` after `checkRootPath()`; `szPath` is what `GetModuleFileName` gives. -/
def checkRootPath (rootPath szPath : NString) : NString :=
  if rootPath = [] then beforeLastBackslash szPath ++ tchars ['\\', 'L', 'O', 'G'] else rootPath

theorem checkRootPath_ne_nil (rootPath szPath : NString) : checkRootPath rootPath szPath ≠ [] := by
  rw [checkRootPath]
  split
  next => exact List.append_ne_nil_of_right_ne_nil _ (List.cons_ne_nil _ _)
  next h => exact h

/-- The constructor, with what is in the files. -/
def construct (rootPath szPath : NString) (content : NString → Option Bytes) :
    OneDayFileAppender Record where
  m_file := none
  m_fileExt := tchars ['l', 'o', 'g']
  m_fileName := []
  m_rootPath := checkRootPath rootPath szPath
  m_prefix := []
  m_suffix := []
  rootPath_ne_nil := checkRootPath_ne_nil rootPath szPath
  content := content
  calls := []

/-- What `localtime_s` gives, of a date after 1900. -/
structure Tm where
  tm_year : ℕ
  tm_mon : ℕ
  tm_mday : ℕ

/-- `ss << n`. -/
def digits (n : ℕ) : NString := tchars (Nat.toDigits 10 n)

/-- `ss << std::setfill('0') << std::setw(2) << n`. -/
def twoDigits (n : ℕ) : NString := (digits n).leftpad 2 (tchar '0')

def buildFileName (a : OneDayFileAppender Record) (t : Tm) : NString :=
  a.m_rootPath
    ++ (if a.m_rootPath.getLast? ≠ some (tchar '\\') then [tchar '\\'] else [])
    ++ (if a.m_prefix ≠ [] then a.m_prefix else [])
    ++ digits (t.tm_year + 1900) ++ [tchar '-']
    ++ twoDigits (t.tm_mon + 1) ++ [tchar '-']
    ++ twoDigits t.tm_mday ++ [tchar ' ']
    ++ (if a.m_suffix ≠ [] then a.m_suffix else [])
    ++ (if a.m_fileExt ≠ [] then tchar '.' :: a.m_fileExt else [])

def openLogFile (layout : Layout Record) (a : OneDayFileAppender Record) (t : Tm)
    (succeeds : Bool) : OneDayFileAppender Record :=
  let fileName := a.buildFileName t
  if a.m_fileName ≠ fileName then
    let a := a.fileClose
    let (a, fileSize) := a.fileOpen fileName succeeds
    let a := { a with m_fileName := fileName }
    if fileSize = some 0 then a.fileWrite layout.header .header else a
  else a

def write (layout : Layout Record) (a : OneDayFileAppender Record) (record : Record) (t : Tm)
    (succeeds : Bool) : OneDayFileAppender Record :=
  (a.openLogFile layout t succeeds).fileWrite (layout.text record) fun fileName =>
    .record fileName record

def setPrefixName (a : OneDayFileAppender Record) (name : NString) :
    OneDayFileAppender Record :=
  { a with m_prefix := name }

def setSuffixName (a : OneDayFileAppender Record) (name : NString) :
    OneDayFileAppender Record :=
  { a with m_suffix := name }

/-- What is called. -/
inductive Label (Record : Type) where
  | write (record : Record) (t : Tm) (succeeds : Bool)
  | setPrefixName (name : NString)
  | setSuffixName (name : NString)

def step (layout : Layout Record) (a : OneDayFileAppender Record) :
    Label Record → OneDayFileAppender Record
  | .write record t succeeds => a.write layout record t succeeds
  | .setPrefixName name => a.setPrefixName name
  | .setSuffixName name => a.setSuffixName name

end OneDayFileAppender

end PocoProxy.DayLog
