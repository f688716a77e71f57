import Zasper.ConfigFile
import Zasper.ContentManager

/-!
# Failed saves

What a file holds after a save that failed. A notebook, a text and the configuration are
written over the old file, which is cut to length zero when it is opened: an error before
that leaves the old bytes, one after it the part of the new ones that was written
(`failed_left`). `keeps_iff` says when the old bytes are still there.
-/
namespace Zasper.FailedSaves
open Zasper.JsonValues Zasper.JsonText Zasper.Strings Zasper.Structs Zasper.Programs Zasper.OperatingSystem Zasper.ContentManager
open Zasper.ConfigFile
set_option linter.unusedSimpArgs false

/-! ## Writing -/

/-- How the writing of a file comes out: it is not opened, the writing stops after some
    bytes, or everything is written. -/
inductive Outcome where
  | refused
  | stopped (written : Nat)
  | done
deriving DecidableEq

def Outcome.failed : Outcome → Bool
  | .done => false
  | _ => true

/-- What the file holds then, if it is opened. -/
def Outcome.left (outcome : Outcome) (bytes : List UInt8) : Option (List UInt8) :=
  match outcome with
  | .refused => none
  | .stopped written => some (bytes.take written)
  | .done => some bytes

/-- A file system with what the file that a path leads to holds. -/
structure Storage (Files : Type) extends FileSystem Files where
  bytesAt : Files → String → Option (List UInt8)
  outcome : Files → String → List UInt8 → Outcome
  writeFile_error : ∀ files path bytes, (answer files (.writeFile path bytes)).2 = none ↔ outcome files path bytes = .done
  writeFile_bytes : ∀ files path bytes,
    bytesAt (answer files (.writeFile path bytes)).1 path = ((outcome files path bytes).left bytes).or (bytesAt files path)
  openFile_bytes : ∀ files path, bytesAt (answer files (.openFile path)).1 path =
    if (answer files (.openFile path)).2 = none then some [] else bytesAt files path
  mkdirAll_bytes : ∀ files dir, bytesAt (answer files (.mkdirAll dir)).1 = bytesAt files

/-! ## Saves -/

inductive Save where
  | notebook (path : String) (content : Value)
  | text (path : String) (content : String)
  | settings (userHomeDir : Except OsError String) (value : Config)

/-- The save, and whether it returns an error. -/
def Save.program : Save → Os Bool
  | .notebook path content => do
    let err ← updateNbContent path content
    pure err.isSome
  | .text path content => do
    let err ← updateContent path content
    pure err.isSome
  | .settings userHomeDir value => do
    let err ← writeConfig userHomeDir value
    pure err.isSome

/-- The file that is written, where its path is known. -/
def Save.target : Save → Option String
  | .notebook path _ | .text path _ => some path
  | .settings userHomeDir _ => (getConfigFilePath userHomeDir).toOption

/-- The bytes of the new content, where it can be converted. -/
def Save.bytes : Save → Option (List UInt8)
  | .notebook _ content => (notebookBytes content).toOption
  | .text _ content => some (utf8 content.toList)
  | .settings _ value => some (encodeIndent (config.encode value))

section
variable {Files : Type} (storage : Storage Files) (files : Files)

/-- A file that is open already is empty until something is written. -/
def Outcome.afterOpen : Outcome → Outcome
  | .refused => .stopped 0
  | outcome => outcome

/-- How far a save gets: whether the target is opened, and what is written then. -/
def Save.outcome : Save → Outcome
  | .notebook path content =>
    match notebookBytes content with
    | .error _ => .refused
    | .ok bytes => storage.outcome files path bytes
  | .text path content => storage.outcome files path (utf8 content.toList)
  | .settings userHomeDir value =>
    match getConfigFilePath userHomeDir with
    | .error _ => .refused
    | .ok filePath =>
      let made := storage.answer files (.mkdirAll (beforeLast '/' filePath))
      let opened := storage.answer made.1 (.openFile filePath)
      if made.2 = none ∧ opened.2 = none then
        (storage.outcome opened.1 filePath (encodeIndent (config.encode value))).afterOpen
      else .refused

/-- A save that fails keeps the old bytes of its target. -/
def Save.Keeps (save : Save) : Prop := (save.program.run storage.answer files).2 = .ok true →
  ∀ path old, save.target = some path → storage.bytesAt files path = some old →
    storage.bytesAt (save.program.run storage.answer files).1 path = some old

/-- The save has come out like this: what it returns, and what its target holds. -/
def Save.CameOut (save : Save) (outcome : Outcome) : Prop :=
  (save.program.run storage.answer files).2 = .ok outcome.failed ∧
  ∀ path, save.target = some path → storage.bytesAt (save.program.run storage.answer files).1 path =
    (save.bytes.bind outcome.left).or (storage.bytesAt files path)

end

section
variable {Files : Type} {storage : Storage Files} {files : Files}

/-- The writing of a file in one call. -/
theorem wrote (path : String) (bytes : List UInt8) :
    (storage.answer files (.writeFile path bytes)).2.isSome = (storage.outcome files path bytes).failed ∧
      storage.bytesAt (storage.answer files (.writeFile path bytes)).1 path =
        ((storage.outcome files path bytes).left bytes).or (storage.bytesAt files path) := by
  refine ⟨?_,storage.writeFile_bytes files path bytes⟩
  have error := storage.writeFile_error files path bytes
  cases reply : (storage.answer files (.writeFile path bytes)).2 with
  | none =>
    rw [error.mp reply]
    rfl
  | some e =>
    cases outcome : storage.outcome files path bytes with
    | refused => rfl
    | stopped n => rfl
    | done =>
      rw [error.mpr outcome] at reply
      cases reply

theorem cameOut_text (path content : String) :
    (Save.text path content).CameOut storage files ((Save.text path content).outcome storage files) := by
  obtain ⟨error,bytes⟩ := @wrote _ storage files path (utf8 content.toList)
  constructor
  · exact congrArg Except.ok error
  · rintro other ⟨⟩
    exact bytes

theorem cameOut_notebook (path : String) (content : Value) :
    (Save.notebook path content).CameOut storage files ((Save.notebook path content).outcome storage files) := by
  unfold Save.CameOut
  simp only [Save.program,updateNbContent,Save.outcome,Save.target,Save.bytes]
  cases notebookBytes content with
  | error e => exact ⟨rfl,fun other _ => rfl⟩
  | ok written =>
    obtain ⟨error,bytes⟩ := @wrote _ storage files path written
    simp only [Program.call_bind,Program.pure_bind,Program.run_call,Program.run_pure,Option.isSome_map]
    refine ⟨congrArg Except.ok error,?_⟩
    rintro other ⟨⟩
    exact bytes

theorem cameOut_settings (userHomeDir : Except OsError String) (value : Config) :
    (Save.settings userHomeDir value).CameOut storage files ((Save.settings userHomeDir value).outcome storage files) := by
  unfold Save.CameOut
  simp only [Save.program,writeConfig,Save.outcome,Save.target,Save.bytes]
  cases getConfigFilePath userHomeDir with
  | error e => exact ⟨rfl,fun other given => by cases given⟩
  | ok filePath =>
    have madeBytes := storage.mkdirAll_bytes files (beforeLast '/' filePath)
    simp only [Program.call_bind,Program.run_call,Except.toOption,Option.some.injEq,forall_eq']
    generalize storage.answer files (.mkdirAll (beforeLast '/' filePath)) = made at madeBytes ⊢
    cases madeDir : made.2 with
    | some e => exact ⟨rfl,congrFun madeBytes filePath⟩
    | none =>
      have openedBytes := storage.openFile_bytes made.1 filePath
      simp only [Program.call_bind,Program.run_call]
      generalize storage.answer made.1 (.openFile filePath) = opened at openedBytes ⊢
      cases openedFile : opened.2 with
      | some e =>
        rw [openedFile,if_neg (by simp),madeBytes] at openedBytes
        exact ⟨rfl,openedBytes⟩
      | none =>
        rw [openedFile,if_pos rfl] at openedBytes
        obtain ⟨error,bytes⟩ := @wrote _ storage opened.1 filePath (encodeIndent (config.encode value))
        rw [openedBytes] at bytes
        simp only [Program.call_bind,Program.pure_bind,Program.run_call,Program.run_pure,Option.isSome_map,and_self,↓reduceIte]
        cases outcome : storage.outcome opened.1 filePath (encodeIndent (config.encode value)) <;>
          rw [outcome] at error bytes <;> exact ⟨congrArg Except.ok error,bytes⟩

/-- Each save comes out as its outcome says. -/
theorem cameOut (save : Save) : save.CameOut storage files (save.outcome storage files) := by
  cases save with
  | notebook path content => exact cameOut_notebook path content
  | text path content => exact cameOut_text path content
  | settings userHomeDir value => exact cameOut_settings userHomeDir value

/-- What is written has been converted. -/
theorem bytes_of_opened {save : Save} (opened : save.outcome storage files ≠ .refused) : ∃ bytes, save.bytes = some bytes := by
  cases save with
  | notebook path content =>
    simp only [Save.bytes]
    cases converted : notebookBytes content with
    | ok bytes => exact ⟨bytes,rfl⟩
    | error e => simp [Save.outcome,converted] at opened
  | text path content => exact ⟨_,rfl⟩
  | settings userHomeDir value => exact ⟨_,rfl⟩

/-- After a save that failed the target holds its old bytes if it was not opened, and
    otherwise the part of the new bytes that was written. -/
theorem failed_left {save : Save} {path : String} (failed : (save.program.run storage.answer files).2 = .ok true)
    (target : save.target = some path) :
    (save.outcome storage files = .refused ∧
      storage.bytesAt (save.program.run storage.answer files).1 path = storage.bytesAt files path) ∨
    ∃ bytes written, save.bytes = some bytes ∧ save.outcome storage files = .stopped written ∧
      storage.bytesAt (save.program.run storage.answer files).1 path = some (bytes.take written) := by
  obtain ⟨returned,left⟩ := @cameOut _ storage files save
  have saved := left path target
  cases outcome : save.outcome storage files with
  | done =>
    rw [outcome,failed] at returned
    cases returned
  | refused =>
    have nothing : save.bytes.bind Outcome.refused.left = none := by cases save.bytes <;> rfl
    rw [outcome,nothing] at saved
    exact .inl ⟨rfl,saved⟩
  | stopped written =>
    obtain ⟨bytes,converted⟩ := @bytes_of_opened _ storage files save (by rw [outcome]; simp)
    rw [outcome,converted] at saved
    exact .inr ⟨bytes,written,converted,rfl,saved⟩

/-- The old bytes are kept if and only if the writing did not stop, or the part that was
    written is the same. -/
theorem keeps_iff (save : Save) : save.Keeps storage files ↔
    ∀ written path old, save.outcome storage files = .stopped written → save.target = some path →
      storage.bytesAt files path = some old → save.bytes.map (List.take written) = some old := by
  obtain ⟨returned,left⟩ := @cameOut _ storage files save
  constructor
  · intro keeps written path old stopped target had
    have failed : (save.program.run storage.answer files).2 = .ok true := by rw [returned,stopped]; rfl
    have saved := left path target
    obtain ⟨bytes,converted⟩ := @bytes_of_opened _ storage files save (by rw [stopped]; simp)
    rw [keeps failed path old target had,stopped,converted] at saved
    rw [converted]
    exact saved.symm
  · intro same failed path old target had
    rcases failed_left failed target with ⟨-,kept⟩ | ⟨bytes,written,converted,stopped,holds⟩
    · rw [kept,had]
    · have part := same written path old stopped target had
      rw [converted] at part
      rw [holds]
      exact part

end

/-! ## A full disk -/

/-- A disk with one file, on which every writing of a file comes out in the same way. -/
def oneDisk (outcome : Outcome) : Storage (Option (List UInt8)) where
  answer file
    | .getwd => (file,.ok "/home/u")
    | .lstat path | .stat path => (file,.ok ⟨path,false,0,"2025-01-01T00:00:00Z"⟩)
    | .readFile _ => (file,match file with
      | some bytes => .ok bytes
      | none => .error ⟨true,"no such file or directory"⟩)
    | .writeFile _ bytes => ((outcome.left bytes).or file,if outcome = .done then none else some ⟨false,"no space left on device"⟩)
    | .openFile _ => (some [],none)
    | .openDir _ | .mkdirAll _ => (file,none)
    | .readDir _ => (file,([],none))
    | .rename _ _ | .remove _ => (file,some ⟨false,"operation not permitted"⟩)
  kept file c reads := by cases c <;> first | rfl | cases reads
  bytesAt file _ := file
  outcome _ _ _ := outcome
  writeFile_error _ _ _ := by by_cases done : outcome = .done <;> simp [done]
  writeFile_bytes _ _ _ := rfl
  openFile_bytes _ _ := rfl
  mkdirAll_bytes _ _ := rfl

def essay : Save := .text "/home/u/essay.txt" "new"
def oldBytes : List UInt8 := utf8 "old".toList

/-- A disk that is full after the first byte. -/
theorem failed_left_essay :
    (essay.outcome (oneDisk (.stopped 1)) (some oldBytes) = .refused ∧
      (oneDisk (.stopped 1)).bytesAt (essay.program.run (oneDisk (.stopped 1)).answer (some oldBytes)).1
        "/home/u/essay.txt" = some oldBytes) ∨
    ∃ bytes written, essay.bytes = some bytes ∧ essay.outcome (oneDisk (.stopped 1)) (some oldBytes) = .stopped written ∧
      (oneDisk (.stopped 1)).bytesAt (essay.program.run (oneDisk (.stopped 1)).answer (some oldBytes)).1
        "/home/u/essay.txt" = some (bytes.take written) :=
  @failed_left _ (oneDisk (.stopped 1)) (some oldBytes) essay "/home/u/essay.txt" rfl rfl

/-- A full disk: the old text is gone, and so is the new one. -/
theorem essay_lost : ¬ essay.Keeps (oneDisk (.stopped 0)) (some oldBytes) := by
  intro keeps
  have held := keeps rfl "/home/u/essay.txt" oldBytes rfl rfl
  exact absurd held (by decide)

end Zasper.FailedSaves
