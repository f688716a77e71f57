import Zasper.Paths
import Zasper.Programs

/-!
# The file calls of the operating system

The calls that the server makes on files, what they are answered with, and the
paths they are given. A directory is opened and then listed; the names of its
entries are single names.
-/
namespace Zasper.OperatingSystem
open Zasper.Paths Zasper.Programs
set_option linter.unusedSimpArgs false

structure OsError where
  notExist : Bool
  text : String
deriving DecidableEq

structure FileInfo where
  name : String
  isDir : Bool
  size : Int64
  /-- In UTC, as `2006-01-02T15:04:05Z`. -/
  modTime : String
deriving DecidableEq

/-- The name of an entry of a directory. -/
structure EntryName where
  name : String
  single : Name name.toList ∧ name.toList ≠ dotdot

inductive Call where
  | getwd
  | lstat (path : String)
  | stat (path : String)
  | readFile (path : String)
  | writeFile (path : String) (bytes : List UInt8)
  /-- Opens for reading and writing; a file is created, or cut to length zero. -/
  | openFile (path : String)
  | openDir (path : String)
  | readDir (path : String)
  | mkdirAll (path : String)
  | rename (old new : String)
  | remove (path : String)
deriving DecidableEq

/-- What a call is answered with. -/
abbrev Reply : Call → Type
  | .getwd => Except OsError String
  | .lstat _ | .stat _ => Except OsError FileInfo
  | .readFile _ => Except OsError (List UInt8)
  | .readDir _ => List EntryName × Option OsError
  | .writeFile _ _ | .openFile _ | .openDir _ | .mkdirAll _ | .rename _ _ | .remove _ => Option OsError

/-- The paths that a call is given. -/
def Call.paths : Call → List String
  | .getwd => []
  | .lstat path | .stat path | .readFile path | .writeFile path _ | .openFile path | .openDir path | .readDir path
  | .mkdirAll path | .remove path => [path]
  | .rename old new => [old,new]

abbrev Os (α : Type) := Program Call Reply α

/-- Calls that only look. -/
def Call.reads : Call → Bool
  | .getwd | .lstat _ | .stat _ | .readFile _ | .openDir _ | .readDir _ => true
  | .writeFile _ _ | .openFile _ | .mkdirAll _ | .rename _ _ | .remove _ => false

/-- Files that answer the calls; calls that only look do not change them. -/
structure FileSystem (Files : Type) where
  answer : Files → (c : Call) → Files × Reply c
  kept : ∀ files c, c.reads = true → (answer files c).1 = files

/-- Reads an opened directory; one that could not be opened has no entries. -/
def readOpened (path : String) (opened : Option OsError) : Os (List EntryName × Option OsError) :=
  match opened with
  | none => .call (.readDir path) pure
  | some _ => pure ([],some ⟨false,"invalid argument"⟩)

/-- The names of an entry are its name. -/
theorem EntryName.names_eq (e : EntryName) : names e.name = [e.name.toList] := by
  simpa using names_single e.single.1

theorem EntryName.noUp (e : EntryName) : dotdot ∉ names e.name := by
  rw [e.names_eq]
  simpa using Ne.symm e.single.2

theorem EntryName.isAbs_eq (e : EntryName) : isAbs e.name = false := by
  have noSlash := e.single.1.2.2
  cases text : e.name.toList with
  | nil => simp [isAbs,text]
  | cons c cs =>
    rw [text] at noSlash
    have other : c ≠ '/' := fun same => noSlash (by simp [same])
    simp [isAbs,text,other]

theorem EntryName.ne_empty (e : EntryName) : e.name ≠ "" := by
  intro none
  exact e.single.1.1 (by simp [none])

/-- The path of an entry of a directory. -/
theorem EntryName.join_eq (e : EntryName) {path : String} (absolute : Absolute path) :
    join [path,e.name] = render true (names path ++ [e.name.toList]) := by
  have noUp : ∀ part ∈ [e.name], dotdot ∉ names part := by simpa using e.noUp
  have joined := names_join_home absolute noUp
  rw [← (absolute_join absolute [e.name]).rendered,joined]
  simp [e.names_eq]

/-- `filepath.Abs`: a relative path is seen from the working directory. -/
def filepathAbs (path : String) : Os (Except OsError String) :=
  if isAbs path then pure (.ok (clean path))
  else .call .getwd (fun
    | .error e => pure (.error e)
    | .ok wd => pure (.ok (join [wd,path])))

end Zasper.OperatingSystem
