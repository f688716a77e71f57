import Mathlib.Data.Nat.Find
import Zasper.FileTrees

/-!
# Untitled entries

Whether a creation ends with one new entry. The loop for a file's name ends at the
first name that is reported missing, and there is none below a regular file or in a
directory that cannot be searched (`endless_of_blocked`); a file that cannot be opened is
looked at all the same (`nil_of_failed`). A directory is made with everything that is
missing above it, and a failure is not reported. `endsFresh_iff` says when it goes well.
-/
namespace Zasper.UntitledEntries
open Zasper.Strings Zasper.Paths Zasper.Programs Zasper.OperatingSystem Zasper.ContentManager Zasper.SavedFiles Zasper.Volumes
open Zasper.StatusCodes Zasper.FileTrees
open Zasper.OpenNotebook (safePath)
set_option linter.unusedSimpArgs false

section
variable {Files Entry : Type} (tree : FileTree Files Entry) (home : String) (files : Files) (payload : ContentPayload)

/-- The creation ends, follows no nil result, and adds one entry; a directory is the one
    that is returned. -/
def EndsFresh : Prop := ∃ fuel model entry, ((createContent fuel home payload).run tree.answer files).2 = .ok model ∧
  Added tree.toVolume files ((createContent fuel home payload).run tree.answer files).1 entry ∧
  (payload.contentType = "directory" → model.path ≠ "" ∧
    tree.entryAt ((createContent fuel home payload).run tree.answer files).1 (names (absPath tree.cwd model.path)) = some entry)

/-- The first name that is reported missing can be opened. -/
def FileOpens (start ending : String) : Prop :=
  let candidate := filePath (safePath tree.cwd home payload.parentDir) start ending
  ∃ k, First (Taken tree.toVolume files) candidate k ∧ (tree.answer files (.openFile (candidate k))).2 = none

/-- The first name that no directory has lies in a directory and can be made. -/
def DirectoryFits : Prop :=
  let candidate := directoryPath tree.toVolume home payload
  ∃ k, First (IsDirectory tree.toVolume files) candidate k ∧ IsDirectory tree.toVolume files (above (candidate k)) ∧
    (tree.answer files (.mkdirAll (candidate k))).2 = none

def CanCreate : Prop :=
  if payload.contentType = "notebook" then FileOpens tree home files payload "Untitled" ".ipynb"
  else if payload.contentType = "directory" then DirectoryFits tree home files payload
  else FileOpens tree home files payload "untitled" ".txt"

end

/-! ## Names that are free -/

/-- If some candidate is free, there is a first one. -/
theorem first_of_free {taken : String → Prop} {candidate : Nat → String} (free : ∃ k, ¬ taken (candidate k)) :
    ∃ k, First taken candidate k := by
  classical
  exact ⟨Nat.find free,Nat.find_spec free,fun j below => not_not.mp (Nat.find_min free below)⟩

section
variable {Files Entry : Type} {tree : FileTree Files Entry} {home : String} {files : Files} {payload : ContentPayload}

theorem missing_of_free {path : String} (free : ¬ Taken tree.toVolume files path) : Missing tree.toVolume files path := by
  unfold Taken at free
  push Not at free
  obtain ⟨e,failed,other⟩ := free
  exact ⟨e,failed,by simpa using other⟩

/-! ## Files -/

theorem run_statCreated_found {path : String} {after : Files} {info : FileInfo}
    (looked : (tree.answer after (.lstat path)).2 = .ok info) :
    (statCreated payload path).run tree.answer after = (after,.ok (createdModel payload path info)) := by
  rcases @run_statCreated _ _ tree.toVolume payload path after with ⟨other,again,run⟩ | ⟨lost,-⟩
  · obtain rfl : info = other := Except.ok.inj (looked.symm.trans again)
    exact run
  · exact absurd ⟨info,looked⟩ lost

/-- Looking at the file changes nothing, and ends. -/
theorem run_statCreated_kept (path : String) (after : Files) :
    ((statCreated payload path).run tree.answer after).1 = after ∧
      ((statCreated payload path).run tree.answer after).2 ≠ .error .fuel := by
  rcases @run_statCreated _ _ tree.toVolume payload path after with ⟨info,-,run⟩ | ⟨-,run⟩ <;> rw [run] <;> simp

/-- What is opened at a name that is reported missing. -/
theorem fileAdded_opened (isNotebook : Bool) {path : String} (missing : Missing tree.toVolume files path)
    (ok : (tree.answer files (.openFile path)).2 = none) :
    FileAdded tree.toVolume files (opened tree.toVolume files isNotebook path) path := by
  unfold opened
  cases isNotebook with
  | false => exact tree.openFile_made files path missing ok
  | true => exact tree.writeFile_made files path _ missing ok

theorem kept_unopened (isNotebook : Bool) {path : String} (missing : Missing tree.toVolume files path)
    (failed : (tree.answer files (.openFile path)).2 ≠ none) :
    tree.entryAt (opened tree.toVolume files isNotebook path) = tree.entryAt files := by
  unfold opened
  cases isNotebook with
  | false => exact tree.openFile_failed files path missing failed
  | true => exact tree.writeFile_failed files path _ missing failed

section
variable {isNotebook : Bool} {start ending : String} {create : Nat → Os ContentModel}
variable (creates : Creates tree.toVolume home files payload isNotebook start ending create)
include creates

/-- Where every name counts as taken, the loop does not end. -/
theorem endless_of_taken
    (taken : ∀ k, Taken tree.toVolume files (filePath (safePath tree.cwd home payload.parentDir) start ending k)) (fuel : Nat) :
    (create fuel).run tree.answer files = (files,.error .fuel) := by
  have searches := searches_freePath tree.toVolume files (safePath tree.cwd home payload.parentDir) start ending
  rcases searches.first fuel 0 (by simp) with lost | ⟨k,free,-⟩
  · exact creates.lost fuel lost
  · exact absurd (taken k) free.1

theorem run_first {k : Nat}
    (first : First (Taken tree.toVolume files) (filePath (safePath tree.cwd home payload.parentDir) start ending) k) :
    ∃ fuel, (create fuel).run tree.answer files =
      (statCreated payload (filePath (safePath tree.cwd home payload.parentDir) start ending k)).run tree.answer
        (opened tree.toVolume files isNotebook (filePath (safePath tree.cwd home payload.parentDir) start ending k)) := by
  have searches := searches_freePath tree.toVolume files (safePath tree.cwd home payload.parentDir) start ending
  obtain ⟨fuel,found⟩ := searches.finds first
  exact ⟨fuel,creates.found fuel _ found⟩

/-- The loop ends if and only if some name is reported missing. -/
theorem ends_iff :
    (∃ fuel, ((create fuel).run tree.answer files).2 ≠ .error .fuel) ↔
      ∃ k, ¬ Taken tree.toVolume files (filePath (safePath tree.cwd home payload.parentDir) start ending k) := by
  constructor
  · rintro ⟨fuel,ended⟩
    by_contra taken
    push Not at taken
    rw [endless_of_taken creates taken fuel] at ended
    exact ended rfl
  · intro free
    obtain ⟨k,first⟩ := first_of_free free
    obtain ⟨fuel,run⟩ := run_first creates first
    exact ⟨fuel,by rw [run]; exact (run_statCreated_kept _ _).2⟩

/-- A file that was not opened and is not found is followed all the same. -/
theorem nil_of_failed {k : Nat}
    (first : First (Taken tree.toVolume files) (filePath (safePath tree.cwd home payload.parentDir) start ending) k)
    (lost : ¬ ∃ info, (tree.answer (opened tree.toVolume files isNotebook
      (filePath (safePath tree.cwd home payload.parentDir) start ending k))
      (.lstat (filePath (safePath tree.cwd home payload.parentDir) start ending k))).2 = .ok info) :
    ∃ fuel, ((create fuel).run tree.answer files).2 = .error .nilResult := by
  obtain ⟨fuel,run⟩ := run_first creates first
  refine ⟨fuel,?_⟩
  rw [run]
  rcases run_statCreated payload (filePath (safePath tree.cwd home payload.parentDir) start ending k)
    (opened tree.toVolume files isNotebook _) with ⟨info,looked,-⟩ | ⟨-,run⟩
  · exact absurd ⟨info,looked⟩ lost
  · rw [run]

theorem file_iff :
    (∃ fuel model entry, ((create fuel).run tree.answer files).2 = .ok model ∧
      Added tree.toVolume files ((create fuel).run tree.answer files).1 entry) ↔
      FileOpens tree home files payload start ending := by
  have searches := searches_freePath tree.toVolume files (safePath tree.cwd home payload.parentDir) start ending
  constructor
  · rintro ⟨fuel,model,entry,ended,added⟩
    rcases searches.first fuel 0 (by simp) with lost | ⟨k,first,found⟩
    · rw [creates.lost fuel lost] at ended
      cases ended
    · rw [creates.found fuel _ found] at added
      refine ⟨k,first,?_⟩
      by_contra failed
      have kept := kept_unopened isNotebook (missing_of_free first.1) failed
      rw [(run_statCreated_kept _ _).1] at added
      obtain ⟨place,made⟩ := added.made
      rw [kept] at made
      exact added.fresh place made
  · rintro ⟨k,first,ok⟩
    obtain ⟨fuel,run⟩ := run_first creates first
    obtain ⟨⟨entry,added⟩,⟨info,looked,-⟩,-⟩ := fileAdded_opened isNotebook (missing_of_free first.1) ok
    have ended := @run_statCreated_found _ _ tree payload _ _ _ looked
    exact ⟨fuel,_,entry,by rw [run,ended],by rw [run,ended]; exact added⟩

end

/-- Every name in the directory is reported with an error other than that it is missing:
    the directory is a regular file, or it cannot be searched. -/
def Blocked (tree : FileTree Files Entry) (files : Files) (dir : String) : Prop :=
  ∀ e : EntryName, ∃ error, (tree.answer files (.stat (join [dir,e.name]))).2 = .error error ∧ error.notExist = false

theorem taken_of_blocked {dir start ending : String} (blocked : Blocked tree files dir) {c : Char} {cs : List Char}
    (text : start.toList = c :: cs) (first : c ≠ '.') (single : '/' ∉ start.toList) (singleEnding : '/' ∉ ending.toList)
    (k : Nat) : Taken tree.toVolume files (filePath dir start ending k) := by
  obtain ⟨e,path,-⟩ := filePath_entry text first single singleEnding dir k
  obtain ⟨error,reported,other⟩ := blocked e
  intro error' failed
  rw [path,reported] at failed
  obtain rfl := Except.error.inj failed
  exact other

/-- In such a directory the creation of a file or a notebook does not end. -/
theorem endless_of_blocked (blocked : Blocked tree files (safePath tree.cwd home payload.parentDir))
    (other : payload.contentType ≠ "directory") (fuel : Nat) :
    (createContent fuel home payload).run tree.answer files = (files,.error .fuel) := by
  unfold createContent
  by_cases notebook : payload.contentType = "notebook"
  · rw [if_pos notebook]
    exact endless_of_taken (creates_untitledNotebook payload)
      (taken_of_blocked blocked rfl (by decide) (by decide) (by decide)) fuel
  · rw [if_neg notebook,if_neg other]
    exact endless_of_taken (creates_untitledFile payload)
      (taken_of_blocked blocked rfl (by decide) (by decide) (by decide)) fuel

/-! ## Directories -/

theorem directory_iff :
    (∃ fuel model entry, ((createDirectory fuel home payload).run tree.answer files).2 = .ok model ∧
      Added tree.toVolume files ((createDirectory fuel home payload).run tree.answer files).1 entry ∧ model.path ≠ "" ∧
      tree.entryAt ((createDirectory fuel home payload).run tree.answer files).1 (names (absPath tree.cwd model.path)) =
        some entry) ↔ DirectoryFits tree home files payload := by
  have searches := searches_freeDirectory tree.toVolume home files payload
  constructor
  · rintro ⟨fuel,model,entry,ended,added,given,here⟩
    rcases searches.first fuel 0 (by simp) with lost | ⟨k,free,found⟩
    · rw [run_createDirectory_lost lost] at ended
      cases ended
    · rw [run_createDirectory found] at ended added here
      obtain rfl := Except.ok.inj ended
      have absolute := absolute_directoryPath given
      dsimp only at here
      rw [absPath_of_absolute absolute] at here
      have ok : (tree.answer files (.mkdirAll (directoryPath tree.toVolume home payload k))).2 = none := by
        by_contra failed
        rw [tree.mkdirAll_failed files _ absolute failed] at here
        exact added.fresh _ here
      refine ⟨k,free,?_,ok⟩
      -- two entries are made where the directory above is missing
      by_contra orphan
      obtain ⟨other,noneAbove,-,thereAbove,different⟩ := tree.mkdirAll_more files _ absolute free.1 orphan ok
      rcases added.others (names (above (directoryPath tree.toVolume home payload k))) with same | ⟨-,new⟩
      · rw [thereAbove,noneAbove] at same
        cases same
      · rw [thereAbove] at new
        exact different (here.trans new.symm)
  · rintro ⟨k,free,parent,ok⟩
    have given : directoryPath tree.toVolume home payload k ≠ "" := by
      intro none
      rw [none] at ok
      exact tree.mkdirAll_empty files ok
    have absolute := absolute_directoryPath given
    obtain ⟨fuel,found⟩ := searches.finds free
    obtain ⟨entry,made⟩ := tree.mkdirAll_one files _ absolute free.1 parent ok
    refine ⟨fuel,_,entry,by rw [run_createDirectory found],?_,given,?_⟩
    · rw [run_createDirectory found]
      exact made.added
    · rw [run_createDirectory found]
      dsimp only
      rw [absPath_of_absolute absolute]
      exact made.here

/-- A creation ends with one new entry if and only if its name is free in a directory
    where it can be made. -/
theorem endsFresh_iff (tree : FileTree Files Entry) (home : String) (files : Files) (payload : ContentPayload) :
    EndsFresh tree home files payload ↔ CanCreate tree home files payload := by
  unfold EndsFresh CanCreate createContent
  by_cases notebook : payload.contentType = "notebook"
  · have other : payload.contentType ≠ "directory" := by rw [notebook]; decide
    simp only [if_pos notebook,other,false_implies,and_true]
    exact file_iff (creates_untitledNotebook payload)
  · by_cases directory : payload.contentType = "directory"
    · simp only [if_neg notebook,if_pos directory,directory,true_implies]
      exact directory_iff
    · simp only [if_neg notebook,if_neg directory,directory,false_implies,and_true]
      exact file_iff (creates_untitledFile payload)

end

/-! ## Below a regular file -/

/-- A project with one file. -/
def looseDrive : Drive where
  nodes place :=
    if place <+: names "/home/u" then some .directory else if place = names "/home/u/a.txt" then some (.file []) else none
  root := by decide
  closed place n there := by
    refine if_pos ?_
    by_cases inside : place ++ [n] <+: names "/home/u"
    · exact (List.prefix_append place [n]).trans inside
    · have file : place ++ [n] = names "/home/u" ++ names "a.txt" := by
        by_contra other
        simp only [inside,↓reduceIte] at there
        exact there (if_neg other)
      have single : names "a.txt" = ["a.txt".toList] := by decide
      rw [single] at file
      exact (List.append_inj' file rfl).1 ▸ List.prefix_rfl

def belowFile : ContentPayload := ⟨"file","a.txt"⟩

/-- Where the file is taken for a directory, the search for a name does not end. -/
theorem below_endless : ¬ EndsFresh (driveTree "/home/u" (by decide)) "/home/u" looseDrive belowFile := by
  rintro ⟨fuel,model,entry,ended,-⟩
  have parent : safePath "/home/u" "/home/u" belowFile.parentDir = "/home/u/a.txt" := by decide
  have absolute : Absolute "/home/u/a.txt" := by decide
  have blocked : Blocked (driveTree "/home/u" (by decide)) looseDrive (safePath "/home/u" "/home/u" belowFile.parentDir) := by
    intro e
    have placed := names_join_home absolute (by simpa using e.noUp : ∀ part ∈ [e.name], dotdot ∉ names part)
    have stat := @driveStat_below_file "/home/u" looseDrive _ (names "/home/u/a.txt") [] e.name.toList
      (absolute_join absolute [e.name]) (by decide) (by rw [placed]; simp [e.names_eq])
    rw [parent,driveTree_stat,stat]
    exact ⟨⟨false,"not a directory"⟩,rfl,rfl⟩
  have lost := @endless_of_blocked _ _ (driveTree "/home/u" (by decide)) "/home/u" looseDrive belowFile blocked (by decide) fuel
  rw [lost] at ended
  cases ended

end Zasper.UntitledEntries
