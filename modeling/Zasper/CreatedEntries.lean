import Zasper.Confinement
import Zasper.ListedPaths
import Zasper.UntitledEntries

/-!
# Created entries

Whether what is returned for a creation can be opened. For a file or a notebook it is the
path in the project and the name that was found (`opens_file`). For a directory it is
the path on the machine, to which `getSafePath` joins `HomeDir` once more, and always
the first name; `opens_iff` says when the directory is opened all the same.
-/
namespace Zasper.CreatedEntries
open Zasper.Strings Zasper.Paths Zasper.Programs Zasper.OperatingSystem Zasper.ContentManager Zasper.SavedFiles Zasper.Volumes
open Zasper.Confinement Zasper.StatusCodes Zasper.FileTrees Zasper.UntitledEntries
open Zasper.OpenNotebook (safePath)
set_option linter.unusedSimpArgs false

/-! ## Paths of entries -/

section
variable {home : HomeDir} {cwd path : String}

/-- A path of the project is resolved to its path in the directory. -/
theorem safePath_inside (inside : Below home.path (join [home.path,clean path])) :
    safePath cwd home.path path = join [home.path,clean path] := by
  have absolute := absolute_join home.absolute [clean path]
  have here := absPath_of_absolute absolute cwd
  have accepted := hasPrefix_of_below home.absolute absolute inside
  simp only [safePath,here,accepted,↓reduceIte]

/-- An entry of a directory of the project lies in it, whatever way the directory is
    spelled. -/
theorem join_entry (home : HomeDir) (path : String) (e : EntryName) :
    join [home.path,clean (join [path,e.name])] = join [join [home.path,clean path],e.name] := by
  have starts (part : String) : startsAbs [home.path,part] = true := startsAbs_rooted home.absolute.rooted [part]
  have absolute := absolute_join home.absolute [clean path]
  have kind : startsAbs [path,e.name] = isAbs path := by
    by_cases empty : path = ""
    · subst empty
      have relative : isAbs "" = false := by decide
      simp [startsAbs,e.ne_empty,e.isAbs_eq,relative]
    · simp [startsAbs,empty]
  have single : dotdot ∉ [e.name.toList] := by
    rw [← e.names_eq]
    exact e.noUp
  have joined : names (join [path,e.name]) = resolve (isAbs path) (names path) ++ [e.name.toList] := by
    rw [names_join,kind]
    simp [e.names_eq,resolve_append _ _ single]
  have same : resolve true (names home.path ++ names (clean (join [path,e.name]))) =
      resolve true (names home.path ++ resolve (isAbs path) (names path)) ++ [e.name.toList] := by
    rw [names_clean,isAbs_join,kind]
    cases rooted : isAbs path with
    | true =>
      rw [rooted] at joined
      have noUp : dotdot ∉ names (join [path,e.name]) := by
        rw [joined,List.mem_append,not_or]
        exact ⟨resolve_rooted _,single⟩
      rw [resolve_of_noUp true noUp,joined,← List.append_assoc,resolve_append true _ single]
    | false =>
      rw [rooted] at joined
      rw [resolve_resolve home.absolute.noUp,joined,← List.append_assoc,resolve_append true _ single]
  refine absolute_ext (absolute_join home.absolute _) (absolute_join absolute _) ?_
  rw [names_join_home absolute (by simpa using e.noUp),names_join,starts,names_join,starts]
  simpa [e.names_eq] using same

theorem base_entry (path : String) (e : EntryName) : base (join [path,e.name]) = e.name := by
  have single : dotdot ∉ [e.name.toList] := by
    rw [← e.names_eq]
    exact e.noUp
  have last : (names (join [path,e.name])).getLast? = some e.name.toList := by
    rw [names_join]
    simp [e.names_eq,resolve_append _ _ single]
  rw [base_join last,String.ofList_toList]

end

/-! ## What is opened -/

section
variable {Files Entry : Type} (tree : FileTree Files Entry) (home : HomeDir) (files : Files)

/-- A directory of the project that exists. -/
structure Parent where
  path : String
  inside : Below home.path (join [home.path,clean path])
  directory : IsDirectory tree.toVolume files (join [home.path,clean path])

/-- The path on the machine of what was created. -/
def createdPath (payload : ContentPayload) (model : ContentModel) : String :=
  if payload.contentType = "directory" then model.path else join [safePath tree.cwd home.path payload.parentDir,model.name]

/-- `getContent` succeeds for the path that is returned, and describes the entry that was
    created. -/
def Describes (after : Files) (payload : ContentPayload) (model : ContentModel) : Prop :=
  (∃ described, ((getContent home.path model.path payload.contentType).run tree.answer after).2 = .ok (.ok described) ∧
    described.path = model.path) ∧
  tree.entryAt after (names (safePath tree.cwd home.path model.path)) =
    tree.entryAt after (names (createdPath tree home payload model))

/-- An entry is created, it is returned with the last component of its path as its name,
    and it can be opened. -/
def Opens (payload : ContentPayload) : Prop := ∃ fuel model after entry,
  (createContent fuel home.path payload).run tree.answer files = (after,.ok model) ∧ Added tree.toVolume files after entry ∧
  model.name = base model.path ∧ Describes tree home after payload model

/-- No directory has the first name, and its path on the machine, joined to `HomeDir`
    once more, still leads to its place. -/
def LeadsBack (parentDir : String) : Prop :=
  let first := safePath tree.cwd home.path (join [parentDir,"untitled-directory"])
  ¬ IsDirectory tree.toVolume files first ∧ tree.one files (names first) (names (join [home.path,first]))

end

/-! ## Opening -/

section
variable {Files : Type} {host : Host Files} {home path : String} {files : Files} {info : FileInfo}

/-- A directory that is found is described, also where it cannot be listed. -/
theorem run_directory_found (looked : (host.answer files (.lstat (safePath host.cwd home path))).2 = .ok info) :
    ∃ model, (getDirectoryModel home path).run host.answer files = (files,.ok (.ok model)) ∧ model.path = path := by
  simp only [getDirectoryModel,getDirectoryModelBy,Program.run_bind,host.run_getSafePath,Program.run_call]
  generalize safePath host.cwd home path = abspath at looked ⊢
  have lstatKept : (host.answer files (.lstat abspath)).1 = files := host.kept files _ rfl
  have openKept : (host.answer files (.openDir abspath)).1 = files := host.kept files _ rfl
  have readKept : (host.answer files (.readDir abspath)).1 = files := host.kept files _ rfl
  rw [lstatKept,looked]
  simp only [Program.run_call,openKept]
  cases (host.answer files (.openDir abspath)).2 with
  | some e => exact ⟨_,rfl,rfl⟩
  | none =>
    rcases listed : (host.answer files (.readDir abspath)).2 with ⟨vs,err⟩
    simp [readOpened,Program.run_bind,readKept,listed,ListedPaths.run_getFileModels]

/-- A file that is found is described where it can be read. -/
theorem run_file_found (looked : (host.answer files (.lstat (safePath host.cwd home path))).2 = .ok info)
    {get : Os (Except OsError ContentModel)} (one : get = getNotebookModel home path ∨ get = getFileModelWithContent home path) :
    (∃ bytes, (host.answer files (.readFile (safePath host.cwd home path))).2 = .ok bytes) ∧
      (∃ model, get.run host.answer files = (files,.ok (.ok model)) ∧ model.path = path) ∨
    (¬ ∃ bytes, (host.answer files (.readFile (safePath host.cwd home path))).2 = .ok bytes) ∧
      ∃ e, get.run host.answer files = (files,.ok (.error e)) := by
  have resolved := host.run_getSafePath home path files
  generalize safePath host.cwd home path = osPath at looked resolved ⊢
  have lstatKept : (host.answer files (.lstat osPath)).1 = files := host.kept files _ rfl
  have readKept : (host.answer files (.readFile osPath)).1 = files := host.kept files _ rfl
  rcases one with rfl | rfl
  · simp only [getNotebookModel,Program.run_bind,resolved,Program.run_call,lstatKept,looked,readFileContent,readKept]
    cases (host.answer files (.readFile osPath)).2 <;> simp
  · simp only [getFileModelWithContent,Program.run_bind,resolved,Program.run_call,lstatKept,looked,readFileContent,readKept]
    cases (host.answer files (.readFile osPath)).2 <;> simp

/-- The entry of a path is described where it is found, and a file can be read. -/
theorem describes_iff (given : path ≠ "") (contentType : String) :
    (∃ described, ((getContent home path contentType).run host.answer files).2 = .ok (.ok described) ∧ described.path = path) ↔
      ∃ info, (host.answer files (.lstat (safePath host.cwd home path))).2 = .ok info ∧
        (info.isDir = true ∨ ∃ bytes, (host.answer files (.readFile (safePath host.cwd home path))).2 = .ok bytes) := by
  have lstatKept : (host.answer files (.lstat (safePath host.cwd home path))).1 = files := host.kept files _ rfl
  have nameless : ContentModel.zero.path ≠ path := fun same => given same.symm
  simp only [getContent,Program.run_bind,host.run_getSafePath,Program.run_call,lstatKept]
  cases looked : (host.answer files (.lstat (safePath host.cwd home path))).2 with
  | error e => simp
  | ok info =>
    simp only [Except.ok.injEq,exists_eq_left',Program.run_bind]
    by_cases dir : info.isDir = true
    · obtain ⟨model,run,named⟩ := run_directory_found looked
      simp [dir,Program.run_bind,run,named]
    · by_cases notebook : contentType = "notebook"
      · rcases run_file_found looked (.inl rfl) with ⟨read,model,run,named⟩ | ⟨unread,e,run⟩
        · simp [dir,notebook,Program.run_bind,run,named,read]
        · simp [dir,notebook,Program.run_bind,run,unread,nameless]
      · rcases run_file_found looked (.inr rfl) with ⟨read,model,run,named⟩ | ⟨unread,e,run⟩
        · simp [dir,notebook,Program.run_bind,run,named,read]
        · simp [dir,notebook,Program.run_bind,run,unread,nameless]

end

/-! ## Created files -/

section
variable {Files Entry : Type} {tree : FileTree Files Entry} {home : HomeDir} {files : Files}

/-- An entry of an existing directory has one path on the machine, and that of the
    directory is above it. -/
theorem Parent.entry (parent : Parent tree home files) (e : EntryName) :
    safePath tree.cwd home.path (join [parent.path,e.name]) = join [safePath tree.cwd home.path parent.path,e.name] ∧
      Absolute (join [safePath tree.cwd home.path parent.path,e.name]) ∧
      IsDirectory tree.toVolume files (above (join [safePath tree.cwd home.path parent.path,e.name])) := by
  have absolute := absolute_join home.absolute [clean parent.path]
  have entryAbsolute := absolute_join absolute [e.name]
  have placed : names (join [join [home.path,clean parent.path],e.name]) =
      names (join [home.path,clean parent.path]) ++ [e.name.toList] := by
    rw [names_join_home absolute (by simpa using e.noUp)]
    simp [e.names_eq]
  have inside : Below home.path (join [home.path,clean (join [parent.path,e.name])]) := by
    rw [join_entry,Below,placed]
    exact parent.inside.trans (List.prefix_append ..)
  have directory : above (join [join [home.path,clean parent.path],e.name]) = join [home.path,clean parent.path] := by
    refine absolute_ext (names_above entryAbsolute).1 absolute ?_
    rw [(names_above entryAbsolute).2,placed,List.dropLast_concat]
  rw [safePath_inside parent.inside,safePath_inside inside,join_entry,directory]
  exact ⟨rfl,entryAbsolute,parent.directory⟩

theorem entry_ne_empty (path : String) (e : EntryName) : join [path,e.name] ≠ "" :=
  (clean_join (by simp : e.name ∈ [path,e.name]) e.ne_empty).1

/-- A file that is created is returned with a path that opens it. -/
theorem opens_file {parent : Parent tree home files} {contentType start ending : String} {isNotebook : Bool}
    {create : Nat → Os ContentModel}
    (creates : Creates tree.toVolume home.path files ⟨contentType,parent.path⟩ isNotebook start ending create)
    {c : Char} {cs : List Char} (text : start.toList = c :: cs) (first : c ≠ '.') (single : '/' ∉ start.toList)
    (singleEnding : '/' ∉ ending.toList) (other : contentType ≠ "directory") :
    (∃ fuel model after entry, (create fuel).run tree.answer files = (after,.ok model) ∧
      Added tree.toVolume files after entry ∧ model.name = base model.path ∧
      Describes tree home after ⟨contentType,parent.path⟩ model) ↔
      FileOpens tree home.path files ⟨contentType,parent.path⟩ start ending := by
  constructor
  · rintro ⟨fuel,model,after,entry,run,added,-,-⟩
    exact (file_iff creates).mp ⟨fuel,model,entry,by rw [run],by rw [run]; exact added⟩
  · rintro ⟨k,free,ok⟩
    obtain ⟨fuel,run⟩ := run_first creates free
    obtain ⟨e,path,-⟩ := filePath_entry text first single singleEnding (safePath tree.cwd home.path parent.path) k
    have made := fileAdded_opened isNotebook (missing_of_free free.1) ok
    dsimp only at path run made
    rw [path] at run made
    obtain ⟨⟨entry,added⟩,⟨info,looked,-,-⟩,read⟩ := made
    rw [run_statCreated_found looked] at run
    obtain ⟨resolved,-,-⟩ := parent.entry e
    have created : createdPath tree home ⟨contentType,parent.path⟩
        (createdModel ⟨contentType,parent.path⟩ (join [safePath tree.cwd home.path parent.path,e.name]) info) =
          join [safePath tree.cwd home.path parent.path,e.name] := by
      simp [createdPath,other,createdModel,base_entry]
    refine ⟨fuel,_,_,entry,run,added,?_,?_,?_⟩
    · simp [createdModel,base_entry]
    · rw [createdModel,base_entry]
      dsimp only
      rw [describes_iff (entry_ne_empty _ _),resolved]
      exact ⟨info,looked,.inr read⟩
    · rw [created,createdModel,base_entry]
      dsimp only
      rw [resolved]

/-! ## Created directories -/

/-- The names that a new directory may get; only the first one is returned as its name. -/
theorem directoryPath_entry (parent : Parent tree home files) (contentType : String) (k : Nat) :
    ∃ e : EntryName, directoryPath tree.toVolume home.path ⟨contentType,parent.path⟩ k =
        safePath tree.cwd home.path (join [parent.path,e.name]) ∧ (e.name = "untitled-directory" ↔ k = 0) := by
  cases k with
  | zero => exact ⟨⟨"untitled-directory",by decide⟩,rfl,by simp⟩
  | succ k =>
    obtain ⟨e,-,name⟩ := @filePath_entry ("untitled-directory" ++ "-") "" 'u' _ rfl (by decide) (by decide) (by decide)
      parent.path (k+1)
    have named := name (by omega)
    refine ⟨e,by rw [named]; rfl,?_⟩
    have longer : e.name ≠ "untitled-directory" := by
      intro same
      have length := congrArg (fun name : String => name.toList.length) (named.symm.trans same)
      simp [numbered] at length
    simp [longer]

/-- A directory that is created is returned with a path that opens it if and only if it
    has the first name and its path leads back to it. -/
theorem opens_directory {parent : Parent tree home files} {contentType : String} (directory : contentType = "directory") :
    (∃ fuel model after entry, (createDirectory fuel home.path ⟨contentType,parent.path⟩).run tree.answer files =
        (after,.ok model) ∧ Added tree.toVolume files after entry ∧ model.name = base model.path ∧
        Describes tree home after ⟨contentType,parent.path⟩ model) ↔
      DirectoryFits tree home.path files ⟨contentType,parent.path⟩ ∧ LeadsBack tree home files parent.path := by
  have searches := searches_freeDirectory tree.toVolume home.path files ⟨contentType,parent.path⟩
  -- `HomeDir` is joined once more to a path that has it already
  have again (e : EntryName) : safePath tree.cwd home.path (join [safePath tree.cwd home.path parent.path,e.name]) =
      join [home.path,join [safePath tree.cwd home.path parent.path,e.name]] := by
    obtain ⟨-,absolute,-⟩ := parent.entry e
    have inside := below_join home.absolute (by simpa using absolute.noUp :
      ∀ part ∈ [join [safePath tree.cwd home.path parent.path,e.name]], dotdot ∉ names part)
    rw [safePath_inside (by rw [absolute.shortest]; exact inside),absolute.shortest]
  constructor
  · rintro ⟨fuel,model,after,entry,run,added,named,described,same⟩
    rcases searches.first fuel 0 (by simp) with lost | ⟨k,free,found⟩
    · rw [run_createDirectory_lost lost] at run
      cases run
    · obtain ⟨e,path,zero⟩ := directoryPath_entry parent contentType k
      obtain ⟨resolved,absolute,above⟩ := parent.entry e
      have made := run_createDirectory found
      have notDirectory := free.1
      rw [run,path,resolved] at made
      rw [path,resolved] at notDirectory
      obtain ⟨rfl,returned⟩ := Prod.mk.inj made
      obtain rfl := Except.ok.inj returned
      dsimp only at named described same
      have ok : (tree.answer files (.mkdirAll (join [safePath tree.cwd home.path parent.path,e.name]))).2 = none := by
        by_contra failed
        have kept := tree.mkdirAll_kept files _ absolute above failed
        obtain ⟨place,made⟩ := added.made
        rw [kept] at made
        exact added.fresh place made
      obtain ⟨new,one⟩ := tree.mkdirAll_one files _ absolute notDirectory above ok
      have isFirst : e.name = "untitled-directory" := by
        rw [base_entry] at named
        exact named.symm
      obtain rfl : k = 0 := zero.mp isFirst
      rw [describes_iff absolute.ne_empty,again] at described
      obtain ⟨info,looked,-⟩ := described
      rw [again,createdPath,if_pos directory,one.here] at same
      have leads := one.onlyThere _ info (absolute_join home.absolute _) same looked
      have start : e = ⟨"untitled-directory",by decide⟩ := by
        cases e
        congr
      subst start
      refine ⟨⟨0,free,by rw [path,resolved]; exact above,by rw [path,resolved]; exact ok⟩,?_,?_⟩
      · rw [resolved]
        exact notDirectory
      · rw [resolved]
        exact leads
  · rintro ⟨⟨k,free,above,ok⟩,notDirectory,leads⟩
    obtain rfl : k = 0 := by
      by_contra later
      exact notDirectory (free.2 0 (by omega))
    obtain ⟨fuel,found⟩ := searches.finds free
    obtain ⟨e,path,zero⟩ := directoryPath_entry parent contentType 0
    obtain ⟨resolved,absolute,-⟩ := parent.entry e
    have made := run_createDirectory found
    have isFirst : e.name = "untitled-directory" := zero.mpr rfl
    rw [← isFirst,resolved] at notDirectory leads
    rw [path,resolved] at made above ok
    obtain ⟨new,one⟩ := tree.mkdirAll_one files _ absolute notDirectory above ok
    obtain ⟨here,info,looked,isDir⟩ := one.found _ (absolute_join home.absolute _) leads
    refine ⟨fuel,_,_,new,made,one.added,?_,?_,?_⟩
    · dsimp only
      rw [base_entry,isFirst]
      decide
    · dsimp only
      rw [describes_iff absolute.ne_empty,again]
      exact ⟨info,looked,.inl isDir⟩
    · dsimp only
      rw [again,createdPath,if_pos directory,one.here,here]

/-- What is returned for a creation can be opened if and only if the creation goes well,
    and a directory has the first name and its path leads back to it. -/
theorem opens_iff (parent : Parent tree home files) (contentType : String) :
    Opens tree home files ⟨contentType,parent.path⟩ ↔ CanCreate tree home.path files ⟨contentType,parent.path⟩ ∧
      (contentType = "directory" → LeadsBack tree home files parent.path) := by
  unfold Opens CanCreate createContent
  by_cases notebook : contentType = "notebook"
  · have other : contentType ≠ "directory" := by rw [notebook]; decide
    simp only [if_pos notebook,other,false_implies,and_true]
    exact opens_file (creates_untitledNotebook _) rfl (by decide) (by decide) (by decide) other
  · by_cases directory : contentType = "directory"
    · simp only [if_neg notebook,if_pos directory,directory,true_implies]
      exact opens_directory rfl
    · simp only [if_neg notebook,if_neg directory,directory,false_implies,and_true]
      exact opens_file (creates_untitledFile _) rfl (by decide) (by decide) (by decide) directory

/-- Without links, the path of a directory leads back to it in the root only. -/
theorem leadsBack_iff (parent : Parent tree home files) (alone : ∀ place other, tree.one files place other → place = other) :
    LeadsBack tree home files parent.path ↔
      ¬ IsDirectory tree.toVolume files (safePath tree.cwd home.path (join [parent.path,"untitled-directory"])) ∧
        home.path = "/" := by
  obtain ⟨resolved,absolute,-⟩ := parent.entry ⟨"untitled-directory",by decide⟩
  have placed := names_join_home home.absolute (by simpa using absolute.noUp :
    ∀ part ∈ [join [safePath tree.cwd home.path parent.path,"untitled-directory"]], dotdot ∉ names part)
  unfold LeadsBack
  dsimp only at resolved placed ⊢
  rw [resolved]
  refine and_congr_right (fun _ => ?_)
  constructor
  · intro one
    have same := alone _ _ one
    rw [placed] at same
    have none : names home.path = [] := by
      have length := congrArg List.length same
      simp at length
      exact length
    exact home.absolute.eq_root none
  · intro root
    have same : names (join [home.path,join [safePath tree.cwd home.path parent.path,"untitled-directory"]]) =
        names (join [safePath tree.cwd home.path parent.path,"untitled-directory"]) := by
      have none : names home.path = [] := by
        rw [root]
        decide
      rw [placed,none]
      simp
    rw [same]
    exact tree.one_self _ _

end

/-! ## A directory that is not opened -/

def userHome : HomeDir := ⟨"/home/u",by decide⟩

def looseParent : Parent (driveTree "/home/u" (by decide)) userHome looseDrive where
  path := "."
  inside := by decide
  directory := (isDirectory_iff (by decide)).mpr (by decide)

/-- The directory is made, and its path is then looked for in the project once more. -/
theorem directory_unopened :
    CanCreate (driveTree "/home/u" (by decide)) userHome.path looseDrive ⟨"directory",looseParent.path⟩ ∧
      ¬ Opens (driveTree "/home/u" (by decide)) userHome looseDrive ⟨"directory",looseParent.path⟩ := by
  constructor
  · have resolved : safePath "/home/u" userHome.path (join [looseParent.path,"untitled-directory"]) =
        join [safePath "/home/u" userHome.path looseParent.path,"untitled-directory"] :=
      (looseParent.entry ⟨"untitled-directory",by decide⟩).1
    have project : safePath "/home/u" userHome.path looseParent.path = "/home/u" := by decide
    have path : directoryPath (driveVolume "/home/u" (by decide)) userHome.path ⟨"directory",looseParent.path⟩ 0 =
        "/home/u/untitled-directory" := by
      change safePath "/home/u" userHome.path (join [looseParent.path,"untitled-directory"]) = _
      rw [resolved,project]
      decide
    rw [CanCreate,if_neg (by decide),if_pos rfl]
    refine ⟨0,⟨?_,fun j before => absurd before (by omega)⟩,?_,?_⟩
    · exact path ▸ mt (isDirectory_iff (by decide)).mp (by decide)
    · exact path ▸ (isDirectory_iff (by decide)).mpr (by decide)
    · exact path ▸ (by decide : (driveAnswer "/home/u" looseDrive (.mkdirAll "/home/u/untitled-directory")).2 = none)
  rintro ⟨fuel,model,after,entry,run,added,named,describes⟩
  have made : createContent fuel userHome.path ⟨"directory",looseParent.path⟩ =
      createDirectory fuel userHome.path ⟨"directory",looseParent.path⟩ := by
    rw [createContent,if_neg (by decide),if_pos rfl]
  rw [made] at run
  obtain ⟨-,leads⟩ := (opens_directory rfl).mp ⟨fuel,model,after,entry,run,added,named,describes⟩
  have notRoot : userHome.path ≠ "/" := by decide
  exact notRoot ((leadsBack_iff looseParent (fun _ _ same => same)).mp leads).2

end Zasper.CreatedEntries
