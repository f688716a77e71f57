import Zasper.Pools
import Zasper.Volumes

/-!
# Kept files

Whether creating and renaming keep the files there are. Requests for creations and
renamings run at the same time, call by call: a creation looks for a free name and
opens the file later, and opening empties a file that has come there in between; a
renaming replaces the file at the new name. `contents_kept` says in which runs the
content of each file of the project is kept.
-/
namespace Zasper.KeptFiles
open Zasper.JsonText Zasper.Strings Zasper.Structs Zasper.Paths Zasper.Programs Zasper.Runs Zasper.Pools
open Zasper.OperatingSystem Zasper.ContentManager Zasper.ContentApi Zasper.SavedFiles Zasper.Volumes
open Zasper.OpenNotebook (safePath)
set_option linter.unusedSimpArgs false
-- what a body decodes to does not matter to the calls
attribute [local irreducible] Codec.decodeStream

/-! ## Trees of files -/

/-- Files in directories, without links. -/
structure FileTree (Files : Type) extends Host Files where
  /-- The bytes of the file at a place. -/
  bytesAt : Files → Place → Option (List UInt8)
  openFile_failed : ∀ files path, (answer files (.openFile path)).2 ≠ none →
    bytesAt (answer files (.openFile path)).1 = bytesAt files
  openFile_others : ∀ files path place, place ≠ names (absPath cwd path) →
    bytesAt (answer files (.openFile path)).1 place = bytesAt files place
  writeFile_others : ∀ files path bytes place, place ≠ names (absPath cwd path) →
    bytesAt (answer files (.writeFile path bytes)).1 place = bytesAt files place
  mkdirAll_kept : ∀ files path, bytesAt (answer files (.mkdirAll path)).1 = bytesAt files
  rename_empty : ∀ files old new, (answer files (.rename old new)).2 = none → new ≠ ""
  rename_failed : ∀ files old new, (answer files (.rename old new)).2 ≠ none →
    bytesAt (answer files (.rename old new)).1 = bytesAt files
  /-- What lay at the old name, or below it, lies at the new one. -/
  rename_moved : ∀ files old new rest, (answer files (.rename old new)).2 = none →
    bytesAt (answer files (.rename old new)).1 (names (absPath cwd new) ++ rest) =
      bytesAt files (names (absPath cwd old) ++ rest)
  rename_others : ∀ files old new place, (answer files (.rename old new)).2 = none →
    ¬ names (absPath cwd old) <+: place → ¬ names (absPath cwd new) <+: place →
    bytesAt (answer files (.rename old new)).1 place = bytesAt files place

/-- A request that creates something, with a bound on the search for a free name, or
    renames it. -/
inductive Arrival where
  | create (fuel : Nat) (body : List UInt8)
  | rename (body : List UInt8)

def handler (home : String) : Arrival → Os Response
  | .create fuel body => contentCreateAPIHandler fuel home body
  | .rename body => contentRenameAPIHandler home body

section
variable {Files : Type} (tree : FileTree Files) (home : String)

/-- The place lies in the project. -/
def Within (place : Place) : Prop := root tree.cwd home <+: place

instance (place : Place) : Decidable (Within tree home place) := inferInstanceAs (Decidable (_ <+: _))

/-- Some file of the project has the content. -/
def Has (files : Files) (bytes : List UInt8) : Prop :=
  ∃ place, Within tree home place ∧ tree.bytesAt files place = some bytes

/-- The places whose files the call replaces, empties or writes. -/
def Overwrites (files : Files) : Call → Place → Prop
  | .openFile path, place => (tree.answer files (.openFile path)).2 = none ∧ place = names (absPath tree.cwd path)
  | .writeFile path _, place => place = names (absPath tree.cwd path)
  | .rename old new, place => (tree.answer files (.rename old new)).2 = none ∧
      names (absPath tree.cwd new) <+: place ∧ ¬ names (absPath tree.cwd old) <+: place
  | _, _ => False

/-- The call overwrites no content of `kept` without another file's having it; where
    `HomeDir` is empty, which accepts every path, nothing is moved out of the project. -/
structure Spares (kept : List UInt8 → Prop) (files : Files) (c : Call) : Prop where
  copied : ∀ bytes place, kept bytes → Within tree home place → Overwrites tree files c place →
    tree.bytesAt files place = some bytes →
    ∃ other, Within tree home other ∧ ¬ Overwrites tree files c other ∧ tree.bytesAt files other = some bytes
  inside : home = "" → ∀ old new, c = .rename old new → (tree.answer files (.rename old new)).2 = none →
    Within tree home (names (absPath tree.cwd new))

end

section
variable {Files : Type} {tree : FileTree Files} {home : String}

/-! ## The calls -/

/-- A renaming leads into the project, and nothing is removed. -/
def Allowed (tree : FileTree Files) (home : String) : Call → Prop
  | .rename _ new => home ≠ "" → new ≠ "" → Within tree home (names (absPath tree.cwd new))
  | .remove _ => False
  | _ => True

theorem within_safePath {path : String} (given : home ≠ "") (accepted : safePath tree.cwd home path ≠ "")
    (noUp : dotdot ∉ names path) : Within tree home (names (absPath tree.cwd (safePath tree.cwd home path))) := by
  obtain ⟨safe,same⟩ := safePath_eq accepted
  have absolute := absolute_safePath tree.rooted accepted
  rw [absPath_of_absolute absolute,same,
    names_below tree.rooted noUp (.inl (isAbs_home tree.rooted safe given))]
  exact List.prefix_append ..

theorem among_getSafePath (tree : FileTree Files) (home path : String) :
    Among tree.answer (Allowed tree home) (fun safe => safe = safePath tree.cwd home path) (getSafePath home path) := by
  unfold getSafePath filepathAbs safePath absPath
  by_cases absolute : isAbs (join [home,clean path]) = true
  · simp [absolute]
  · simp only [absolute,Bool.false_eq_true,↓reduceIte,Program.call_bind,among_call]
    refine ⟨trivial,?_⟩
    intro files
    simp [tree.getwd_eq]

theorem among_fileExists (path : String) :
    Among tree.answer (Allowed tree home) (fun _ => True) (fileExists path) := by
  refine ⟨trivial,?_⟩
  intro files
  cases (tree.answer files (.stat path)).2 <;> trivial

theorem among_directoryExists (path : String) :
    Among tree.answer (Allowed tree home) (fun _ => True) (directoryExists path) := by
  refine ⟨trivial,?_⟩
  intro files
  cases (tree.answer files (.stat path)).2 <;> trivial

theorem among_freePath (parentDir start ending : String) (fuel i : Nat) (path : String) :
    Among tree.answer (Allowed tree home) (fun _ => True) (freePath parentDir start ending fuel i path) := by
  induction fuel generalizing i path with
  | zero => trivial
  | succ fuel ih =>
    apply among_bind (among_fileExists path)
    rintro (_ | _) -
    · trivial
    · exact ih _ _

theorem among_freeDirectory (parentDir dirName : String) (fuel i : Nat) (dirPath : String) :
    Among tree.answer (Allowed tree home) (fun _ => True) (freeDirectory home parentDir dirName fuel i dirPath) := by
  induction fuel generalizing i dirPath with
  | zero => trivial
  | succ fuel ih =>
    apply among_bind (among_directoryExists dirPath)
    rintro (_ | _) -
    · trivial
    · apply among_bind (among_getSafePath tree home _)
      intro next _
      exact ih _ _

theorem among_statCreated (payload : ContentPayload) (path : String) :
    Among tree.answer (Allowed tree home) (fun _ => True) (statCreated payload path) := by
  refine ⟨trivial,?_⟩
  intro files
  apply among_bind (among_follow (fun _ _ => trivial))
  exact fun _ _ => trivial

theorem among_createContent (fuel : Nat) (payload : ContentPayload) :
    Among tree.answer (Allowed tree home) (fun _ => True) (createContent fuel home payload) := by
  unfold createContent
  split_ifs
  · apply among_bind (among_getSafePath tree home _)
    intro parentDir _
    apply among_bind (among_freePath _ _ _ _ _ _)
    intro path _
    exact ⟨trivial,fun _ => ⟨trivial,fun _ => among_statCreated payload path⟩⟩
  · apply among_bind (among_getSafePath tree home _)
    intro first _
    apply among_bind (among_freeDirectory _ _ _ _ _)
    exact fun dirPath _ => ⟨trivial,fun _ => trivial⟩
  · apply among_bind (among_getSafePath tree home _)
    intro parentDir _
    apply among_bind (among_freePath _ _ _ _ _ _)
    intro path _
    exact ⟨trivial,fun _ => among_statCreated payload path⟩

theorem among_rename {parentDir oldName newName : String} (noUp : dotdot ∉ names parentDir)
    (newNoUp : dotdot ∉ names newName) :
    Among tree.answer (Allowed tree home) (fun _ => True) (rename home parentDir oldName newName) := by
  apply among_bind (among_getSafePath tree home _)
  intro old _
  apply among_bind (among_getSafePath tree home _)
  rintro new rfl
  refine ⟨?_,fun _ => trivial⟩
  intro given accepted
  exact within_safePath given accepted (noUp_join (by simpa using ⟨noUp,newNoUp⟩))

theorem among_handler (tree : FileTree Files) (home : String) (arrival : Arrival) :
    Among tree.answer (Allowed tree home) (fun _ => True) (handler home arrival) := by
  cases arrival with
  | create fuel body =>
    unfold handler contentCreateAPIHandler
    dsimp only
    split_ifs
    · trivial
    · exact among_bind (among_createContent fuel _) (fun _ _ => trivial)
  | rename body =>
    unfold handler contentRenameAPIHandler
    dsimp only
    generalize (renameContentPayload.decodeStream body renameContentPayload.zero).1 = payload
    split_ifs with absent
    · trivial
    · simp only [Bool.or_eq_true,not_or,Bool.not_eq_true] at absent
      obtain ⟨⟨parent,-⟩,new⟩ := absent
      exact among_bind (among_rename (noUp_of_contains parent) (noUp_of_contains new)) (fun _ _ => trivial)

/-! ## What the calls keep -/

/-- A content that is kept has a file that the call does not overwrite. -/
theorem exists_spared {kept : List UInt8 → Prop} {files : Files} {c : Call} (spares : Spares tree home kept files c)
    {bytes : List UInt8} (isKept : kept bytes) (has : Has tree home files bytes) :
    ∃ other, Within tree home other ∧ ¬ Overwrites tree files c other ∧ tree.bytesAt files other = some bytes := by
  obtain ⟨place,within,holds⟩ := has
  by_cases overwritten : Overwrites tree files c place
  · exact spares.copied bytes place isKept within overwritten holds
  · exact ⟨place,within,overwritten,holds⟩

/-- One call keeps the contents that it spares. -/
theorem call_keeps {kept : List UInt8 → Prop} (files : Files) (c : Call) (allowed : Allowed tree home c)
    (spares : Spares tree home kept files c) {bytes : List UInt8} (isKept : kept bytes) (has : Has tree home files bytes) :
    Has tree home (tree.answer files c).1 bytes := by
  obtain ⟨other,within,safe,holds⟩ := exists_spared spares isKept has
  cases c with
  | openFile path =>
    by_cases opened : (tree.answer files (.openFile path)).2 = none
    · refine ⟨other,within,?_⟩
      rw [tree.openFile_others files path other (fun same => safe ⟨opened,same⟩)]
      exact holds
    · exact ⟨other,within,by rw [tree.openFile_failed files path opened]; exact holds⟩
  | writeFile path new =>
    refine ⟨other,within,?_⟩
    rw [tree.writeFile_others files path new other safe]
    exact holds
  | mkdirAll path => exact ⟨other,within,by rw [tree.mkdirAll_kept files path]; exact holds⟩
  | rename old new =>
    by_cases renamed : (tree.answer files (.rename old new)).2 = none
    · by_cases moved : names (absPath tree.cwd old) <+: other
      · obtain ⟨rest,rfl⟩ := moved
        have inside : Within tree home (names (absPath tree.cwd new)) := by
          by_cases given : home = ""
          · exact spares.inside given old new rfl renamed
          · exact allowed given (tree.rename_empty files old new renamed)
        refine ⟨names (absPath tree.cwd new) ++ rest,inside.trans (List.prefix_append ..),?_⟩
        rw [tree.rename_moved files old new rest renamed]
        exact holds
      · have stays : ¬ names (absPath tree.cwd new) <+: other := fun under => safe ⟨renamed,under,moved⟩
        refine ⟨other,within,?_⟩
        rw [tree.rename_others files old new other renamed moved stays]
        exact holds
    · exact ⟨other,within,by rw [tree.rename_failed files old new renamed]; exact holds⟩
  | remove path => exact allowed.elim
  | getwd => exact ⟨other,within,by rw [tree.kept files _ rfl]; exact holds⟩
  | lstat path => exact ⟨other,within,by rw [tree.kept files _ rfl]; exact holds⟩
  | stat path => exact ⟨other,within,by rw [tree.kept files _ rfl]; exact holds⟩
  | readFile path => exact ⟨other,within,by rw [tree.kept files _ rfl]; exact holds⟩
  | openDir path => exact ⟨other,within,by rw [tree.kept files _ rfl]; exact holds⟩
  | readDir path => exact ⟨other,within,by rw [tree.kept files _ rfl]; exact holds⟩

/-- In a run of creations and renamings whose calls spare them, the contents of the files
    at the start are kept. -/
theorem contents_kept (tree : FileTree Files) (home : String) (files : Files) (events : List (Event Arrival))
    (spares : Meets (step tree.answer (handler home)) (Good (Spares tree home (Has tree home files))) ⟨files,[]⟩ events) :
    ∀ bytes, Has tree home files bytes →
      Has tree home (run (step tree.answer (handler home)) ⟨files,[]⟩ events).1.world bytes := by
  refine @run_calls _ _ _ _ _ _ _ _ _ (fun world => ∀ bytes, Has tree home files bytes → Has tree home world bytes)
    (among_handler tree home) ?_ _ (fun bytes has => has) _ spares
  intro world c inv allowed fine bytes has
  exact call_keeps world c allowed fine has (inv bytes has)

end

/-! ## One renaming -/

/-- Files that can be read, written and renamed, each at a place of its own. -/
def plainAnswer (cwd : String) (files : Place → Option (List UInt8)) :
    (c : Call) → (Place → Option (List UInt8)) × Reply c
  | .getwd => (files,.ok cwd)
  | .lstat path | .stat path => (files,match files (names (absPath cwd path)) with
    | some bytes => if path = "" then .error ⟨true,"no such file"⟩
      else .ok ⟨base path,false,Int64.ofNat bytes.length,"2025-01-01T00:00:00Z"⟩
    | none => .error ⟨true,"no such file"⟩)
  | .readFile path => (files,match files (names (absPath cwd path)) with
    | some bytes => .ok bytes
    | none => .error ⟨true,"no such file"⟩)
  | .writeFile path bytes => (Function.update files (names (absPath cwd path)) (some bytes),none)
  | .openFile path => (Function.update files (names (absPath cwd path)) (some []),none)
  | .rename old new =>
    if new = "" then (files,some ⟨true,"no such file"⟩)
    else
      let oldPlace := names (absPath cwd old)
      let newPlace := names (absPath cwd new)
      (fun place =>
        if newPlace <+: place then files (oldPlace ++ place.drop newPlace.length)
        else if oldPlace <+: place then none
        else files place,none)
  | .openDir _ | .mkdirAll _ | .remove _ => (files,some ⟨false,"permission denied"⟩)
  | .readDir _ => (files,([],none))

def plainTree (cwd : String) (rooted : isAbs cwd = true) : FileTree (Place → Option (List UInt8)) where
  answer := plainAnswer cwd
  kept files c reads := by cases c <;> first | rfl | cases reads
  cwd := cwd
  rooted := rooted
  getwd_eq _ := rfl
  lstat_empty files := by
    dsimp only [plainAnswer]
    split <;> exact ⟨_,rfl⟩
  bytesAt files place := files place
  openFile_failed files path failed := by simp [plainAnswer] at failed
  openFile_others files path place other := Function.update_of_ne other _ _
  writeFile_others files path bytes place other := Function.update_of_ne other _ _
  mkdirAll_kept _ _ := by simp [plainAnswer]
  rename_empty files old new renamed := by
    rintro rfl
    simp [plainAnswer] at renamed
  rename_failed files old new failed := by
    by_cases none : new = ""
    · simp [plainAnswer,none]
    · simp [plainAnswer,none] at failed
  rename_moved files old new rest renamed := by
    have given : new ≠ "" := by
      rintro rfl
      simp [plainAnswer] at renamed
    simp [plainAnswer,given]
  rename_others files old new place renamed notOld notNew := by
    have given : new ≠ "" := by
      rintro rfl
      simp [plainAnswer] at renamed
    simp [plainAnswer,given,notOld,notNew]

def newName : RenameContentPayload := ⟨"","a.txt","b.txt"⟩

/-- A renaming is requested, and its call is made. -/
def renameEvents : List (Event Arrival) :=
  [.start (.rename (marshal (renameContentPayload.encode newName))),.call 0]

theorem getSafePath_joined {home path safe : String} (joined : join [home,clean path] = safe) (absolute : Absolute safe)
    (inside : hasPrefix safe home = true) : getSafePath home path = pure safe := by
  simp only [getSafePath,filepathAbs,joined,absolute.rooted,↓reduceIte,Program.pure_bind,absolute.shortest,inside]

theorem handler_newName : handler "/home/u" (.rename (marshal (renameContentPayload.encode newName))) =
    .call (.rename "/home/u/a.txt" "/home/u/b.txt") (fun _ => pure ⟨200,.empty⟩) := by
  have old : getSafePath "/home/u" (join [newName.parentDir,newName.oldName]) = pure "/home/u/a.txt" :=
    getSafePath_joined (by decide) (by decide) (by decide)
  have new : getSafePath "/home/u" (join [newName.parentDir,newName.newName]) = pure "/home/u/b.txt" :=
    getSafePath_joined (by decide) (by decide) (by decide)
  have allowed : ¬ (contains newName.parentDir ".." || contains newName.oldName ".." || contains newName.newName "..") := by
    decide
  rw [handler,contentRenameAPIHandler,decodeStream_marshal renameContentPayload_inverse.rereads]
  dsimp only [id]
  rw [if_neg allowed,rename,old,new,Program.pure_bind,Program.pure_bind,Program.call_bind]
  rfl

def oneFile (place : Place) : Option (List UInt8) := if place = names "/home/u/a.txt" then some [1] else none

def twoFiles (place : Place) : Option (List UInt8) :=
  if place = names "/home/u/b.txt" then some [2] else oneFile place

def homeTree : FileTree (Place → Option (List UInt8)) := plainTree "/home/u" absolute_user.rooted

/-- A renaming to a name that no file has keeps the file's content. -/
theorem oneFile_kept :
    Has homeTree "/home/u" (run (step homeTree.answer (handler "/home/u")) ⟨oneFile,[]⟩ renameEvents).1.world [1] := by
  refine contents_kept homeTree "/home/u" oneFile renameEvents ⟨trivial,?_,trivial⟩ [1]
    ⟨names "/home/u/a.txt",by decide,rfl⟩
  intro c next
  obtain rfl := Option.some.inj ((nextCall_first handler_newName oneFile).symm.trans next)
  constructor
  · rintro bytes place _ _ ⟨-,under,-⟩ holds
    have here : place = names "/home/u/a.txt" := by
      by_contra other
      exact absurd (holds.symm.trans (if_neg other)) (by simp)
    rw [here] at under
    exact absurd under (by decide)
  · intro none
    exact absurd none (by decide)

/-- A renaming to the name of another file destroys that one. -/
theorem twoFiles_destroyed : ¬ ∀ bytes, Has homeTree "/home/u" twoFiles bytes →
    Has homeTree "/home/u" (run (step homeTree.answer (handler "/home/u")) ⟨twoFiles,[]⟩ renameEvents).1.world bytes := by
  intro kept
  have there : Has homeTree "/home/u" twoFiles [2] := ⟨names "/home/u/b.txt",by decide,rfl⟩
  obtain ⟨place,-,holds⟩ := kept [2] there
  rw [renameEvents,run_first handler_newName twoFiles] at holds
  change (plainAnswer "/home/u" twoFiles (.rename "/home/u/a.txt" "/home/u/b.txt")).1 place = some [2] at holds
  have oldPlace : names (absPath "/home/u" "/home/u/a.txt") = names "/home/u/a.txt" := by decide
  have newPlace : names (absPath "/home/u" "/home/u/b.txt") = names "/home/u/b.txt" := by decide
  have only (other : Place) (has : twoFiles other = some [2]) : other = names "/home/u/b.txt" := by
    by_contra elsewhere
    rw [twoFiles,if_neg elsewhere,oneFile] at has
    split_ifs at has
    simp at has
  simp only [plainAnswer,String.reduceEq,↓reduceIte,oldPlace,newPlace] at holds
  split_ifs at holds with under above
  · have same := only _ holds
    have first := congrArg (List.take 3) same
    rw [List.take_append_of_le_length (by decide)] at first
    exact absurd first (by decide)
  · exact under (only place holds ▸ List.prefix_rfl)

end Zasper.KeptFiles
