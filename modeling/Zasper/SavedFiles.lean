import Zasper.OpenNotebook
import Zasper.ContentApi

/-!
# Saved files

Whether a file that was saved reads back. The update writes to the path of the
request, which the system takes from the working directory of the server; the
request for the content resolves it below `HomeDir`. `readsBack_iff` says for which
directories, paths and files the two meet; where the server is started in the
project's directory they do (`readsBack_in_project`).
-/
namespace Zasper.SavedFiles
open Zasper.JsonValues Zasper.JsonText Zasper.Strings Zasper.Structs Zasper.Paths Zasper.Programs Zasper.OperatingSystem
open Zasper.ContentManager Zasper.ContentApi
set_option linter.unusedSimpArgs false

/-! ## Disks -/

/-- The names of an absolute path. -/
abbrev Place := List (List Char)

/-- The last piece of the path is a name: the path ends in no slash and no point. -/
def EndsInName (path : String) : Prop := Name (((cutAt '/' path.toList).getLast?).getD [])

instance (path : String) : Decidable (EndsInName path) := inferInstanceAs (Decidable (Name _))

theorem EndsInName.last {path : String} (named : EndsInName path) :
    ∃ n, (cutAt '/' path.toList).getLast? = some n ∧ Name n := by
  obtain ⟨n,last⟩ : ∃ n, (cutAt '/' path.toList).getLast? = some n :=
    Option.isSome_iff_exists.mp (List.getLast?_isSome.mpr (cutAt_ne_nil '/' path.toList))
  refine ⟨n,last,?_⟩
  rwa [EndsInName,last] at named

/-- A file system whose files have bytes. Links are allowed: several places may lead
    to one file. -/
structure Disk (Files : Type) extends FileSystem Files where
  /-- The working directory of the process. -/
  cwd : String
  rooted : isAbs cwd = true
  /-- The bytes of the file that a place leads to; none for a directory, and none where there is no file. -/
  bytesAt : Files → Place → Option (List UInt8)
  /-- The places that lead to the file that is written at a place. -/
  leads : Files → Place → Place → Prop
  leads_self : ∀ files place, leads files place place
  getwd_eq : ∀ files, (answer files .getwd).2 = .ok cwd
  lstat_empty : ∀ files, ∃ e, (answer files (.lstat "")).2 = .error e
  lstat_file : ∀ files path bytes, Absolute path → bytesAt files (names path) = some bytes →
    ∃ info, (answer files (.lstat path)).2 = .ok info ∧ info.isDir = false
  readFile_iff : ∀ files path bytes, Absolute path →
    ((answer files (.readFile path)).2 = .ok bytes ↔ bytesAt files (names path) = some bytes)
  /-- A path that ends in a slash or in a point leads to no file that could be written. -/
  writeFile_name : ∀ files path bytes, (answer files (.writeFile path bytes)).2 = none → EndsInName path
  writeFile_written : ∀ files path bytes place, (answer files (.writeFile path bytes)).2 = none →
    leads files (names (absPath cwd path)) place → bytesAt (answer files (.writeFile path bytes)).1 place = some bytes
  writeFile_others : ∀ files path bytes place, (answer files (.writeFile path bytes)).2 = none →
    ¬ leads files (names (absPath cwd path)) place →
    bytesAt (answer files (.writeFile path bytes)).1 place = bytesAt files place

/-- `HomeDir` of a server that is started with the flag `-cwd`. -/
def homeDir (cwd flag : String) : String := if flag = "." then cwd else flag

/-! ## Saving and reading -/

/-- The body of a request that saves a text as a file. -/
structure FileUpdate where
  body : List UInt8
  path : String
  text : String
  decoded : ∃ request, contentUpdateRequest.decodeStream body contentUpdateRequest.zero = (request,none) ∧
    request.path = path ∧ request.type = "file" ∧ request.content.json = .str text
  relative : isAbs path = false
  noUp : contains path ".." = false
  noImage : hasSuffix path ".png" = false

/-- The body asks for the content of a file, and not for a notebook. -/
def Asks (path : String) (body : List UInt8) : Prop :=
  ∃ request, contentRequestBody.decodeStream body contentRequestBody.zero = (request,none) ∧
    request.path = path ∧ request.type ≠ "notebook"

section
variable {Files : Type} (disk : Disk Files) (home : String)

/-- The answer to a request and the files after it. -/
def answered (files : Files) (handler : Os Response) : Files × Except Stop Response := handler.run disk.answer files

/-- The path of a file in the project, as an absolute one. -/
def target (path : String) : String := absPath disk.cwd (join [home,clean path])

/-- Where a path leads that is taken from the working directory. -/
def written (path : String) : Place := names (absPath disk.cwd path)

/-- The place lies in the project. -/
def InProject (place : Place) : Prop := names (absPath disk.cwd home) <+: place

/-- The answer has the status 200 and the content. -/
def Returns (content : List UInt8) (answer : Except Stop Response) : Prop :=
  ∃ model, answer = .ok ⟨200,.content model⟩ ∧ model.content = .text content

/-- The text that was saved is returned for its path, and no other file of the project
    has changed. -/
structure ReadsBack (files : Files) (u : FileUpdate) : Prop where
  returned : ∀ body, Asks u.path body →
    Returns (utf8 u.text.toList)
      (answered disk (answered disk files (contentUpdateAPIHandler u.body)).1 (contentAPIHandler home body)).2
  kept : ∀ place, InProject disk home place → place ≠ names (target disk home u.path) →
    disk.bytesAt (answered disk files (contentUpdateAPIHandler u.body)).1 place = disk.bytesAt files place

/-- What is answered with 200 reads back. -/
def Saved (files : Files) (u : FileUpdate) : Prop :=
  (∃ response, (answered disk files (contentUpdateAPIHandler u.body)).2 = .ok response ∧ response.status = 200) →
    ReadsBack disk home files u

/-- The file that is written is the one that is read, or both have the text already:
    the path that is read begins with `HomeDir`, its file is the one that is written or
    has the text, and so has every other file of the project that is written with it. -/
structure Agree (files : Files) (u : FileUpdate) : Prop where
  resolved : hasPrefix (target disk home u.path) home = true
  read : disk.leads files (written disk u.path) (names (target disk home u.path)) ∨
    disk.bytesAt files (names (target disk home u.path)) = some (utf8 u.text.toList)
  others : ∀ place, disk.leads files (written disk u.path) place → InProject disk home place →
    place ≠ names (target disk home u.path) → disk.bytesAt files place = some (utf8 u.text.toList)

/-- The system writes the text to the path. -/
def Writable (files : Files) (u : FileUpdate) : Prop :=
  (disk.answer files (.writeFile u.path (utf8 u.text.toList))).2 = none

end

/-! ## The update -/

section
variable {Files : Type} {disk : Disk Files} {home : String} {files : Files} {u : FileUpdate}

/-- The update is one call, whose reply is looked at. -/
theorem update_eq (u : FileUpdate) : contentUpdateAPIHandler u.body =
    .call (.writeFile u.path (utf8 u.text.toList)) (fun err => pure (match err with
      | some e => errorResponse 400 "Error saving content: " (.file e)
      | none => ⟨200,.empty⟩)) := by
  obtain ⟨request,decoded,path,type,content⟩ := u.decoded
  unfold contentUpdateAPIHandler
  rw [decoded]
  have allowed : contains request.path ".." = false := path ▸ u.noUp
  simp only [allowed,Bool.false_eq_true,↓reduceIte,type,String.reduceEq,updateFile,content,updateContent,
    Program.call_bind,Program.pure_bind]
  rw [path]
  congr 1
  funext err
  cases err <;> rfl

theorem update_written (writable : Writable disk files u) :
    answered disk files (contentUpdateAPIHandler u.body) =
      ((disk.answer files (.writeFile u.path (utf8 u.text.toList))).1,.ok ⟨200,.empty⟩) := by
  have here : (disk.answer files (.writeFile u.path (utf8 u.text.toList))).2 = none := writable
  rw [answered,update_eq,Program.run_call,here]
  rfl

theorem update_refused (refused : ¬ Writable disk files u) :
    ∃ response, (answered disk files (contentUpdateAPIHandler u.body)).2 = .ok response ∧ response.status = 400 := by
  obtain ⟨e,failed⟩ : ∃ e, (disk.answer files (.writeFile u.path (utf8 u.text.toList))).2 = some e :=
    Option.ne_none_iff_exists'.mp refused
  rw [answered,update_eq,Program.run_call,failed]
  exact ⟨_,rfl,rfl⟩

theorem answered_ok_iff :
    (∃ response, (answered disk files (contentUpdateAPIHandler u.body)).2 = .ok response ∧ response.status = 200) ↔
      Writable disk files u := by
  by_cases writable : Writable disk files u
  · simp [update_written writable,writable]
  · obtain ⟨response,refused,status⟩ := update_refused writable
    simp [refused,status,writable]

/-! ## The path that is read -/

theorem FileUpdate.names_noUp (u : FileUpdate) : dotdot ∉ names u.path := noUp_of_contains u.noUp

/-- The names of the path end the names of the target. -/
theorem names_target (disk : Disk Files) (home : String) (u : FileUpdate) :
    ∃ before, names (target disk home u.path) = before ++ names u.path := by
  have noUp := u.names_noUp
  have cleaned : names (clean u.path) = names u.path := by rw [names_clean,resolve_of_noUp _ noUp]
  have joined : names (join [home,clean u.path]) = resolve (startsAbs [home,clean u.path]) (names home) ++ names u.path := by
    rw [names_join]
    simp [cleaned,resolve_append _ _ noUp]
  unfold target absPath
  split_ifs with absolute
  · rw [names_clean,joined,resolve_append _ _ noUp]
    exact ⟨_,rfl⟩
  · rw [names_join,List.flatMap_cons,List.flatMap_cons,List.flatMap_nil,List.append_nil,joined,← List.append_assoc,
      resolve_append _ _ noUp]
    exact ⟨_,rfl⟩

/-- A file that can be written is read as it is, and not as an image. -/
theorem fileContent_target (disk : Disk Files) (home : String) (u : FileUpdate) (named : EndsInName u.path)
    (file : List UInt8) : fileContent (target disk home u.path) file = file := by
  obtain ⟨n,last,name⟩ := named.last
  obtain ⟨before,split⟩ := names_target disk home u
  have lastName : (names u.path).getLast? = some n := by
    obtain ⟨pieces,whole⟩ := List.getLast?_eq_some_iff.mp last
    rw [names,whole,List.filter_append]
    simp [name.1,name.2.1]
  have lastTarget : (names (target disk home u.path)).getLast? = some n := by
    rw [split,List.getLast?_append,lastName]
    rfl
  have based : base (target disk home u.path) = String.ofList n :=
    base_of_last (absolute_absPath disk.rooted _) lastTarget
  have other : ext (base (target disk home u.path)) ≠ ".png" := by
    intro image
    have ends : ".png".toList <:+ u.path.toList := by
      have tail : (ext (String.ofList n)).toList <:+ n := by simpa using ext_ends (String.ofList n)
      rw [← based,image] at tail
      exact tail.trans (cutAt_ends last)
    have : hasSuffix u.path ".png" = true := hasSuffix_iff.mpr ends
    rw [u.noImage] at this
    cases this
  rw [fileContent,if_neg other]

/-! ## The request for the content -/

theorem ends_getDirectoryModel {relativePath : String} {model : ContentModel}
    (ends : (getDirectoryModel home relativePath).Ends (.ok model)) : ∃ list, model.content = .entries list := by
  obtain ⟨abspath,-,info,ends⟩ := Program.ends_bind.mp ends
  cases info with
  | error e => simp at ends
  | ok info =>
    obtain ⟨opened,ends⟩ := ends
    obtain ⟨listed,-,ends⟩ := Program.ends_bind.mp ends
    obtain ⟨models,-,ends⟩ := Program.ends_bind.mp ends
    cases ends
    exact ⟨_,rfl⟩

theorem ends_getNotebookModel {path : String} {model : ContentModel}
    (ends : (getNotebookModel home path).Ends (.ok model)) : ∃ nb, model.content = .notebook nb := by
  obtain ⟨osPath,-,info,ends⟩ := Program.ends_bind.mp ends
  cases info with
  | error e => simp at ends
  | ok info =>
    obtain ⟨content,-,ends⟩ := Program.ends_bind.mp ends
    cases content with
    | error e => simp at ends
    | ok content =>
      cases ends
      exact ⟨_,rfl⟩

theorem ends_getFileModelWithContent {path : String} {model : ContentModel}
    (ends : (getFileModelWithContent home path).Ends (.ok model)) : ∃ bytes, model.content = .text bytes := by
  obtain ⟨osPath,-,info,ends⟩ := Program.ends_bind.mp ends
  cases info with
  | error e => simp at ends
  | ok info =>
    obtain ⟨content,-,ends⟩ := Program.ends_bind.mp ends
    cases content with
    | error e => simp at ends
    | ok content =>
      cases ends
      exact ⟨_,rfl⟩

/-- What a file model has as its content. -/
theorem run_getFileModelWithContent (fs : FileSystem Files) {cwd : String} {files : Files}
    (getwd : (fs.answer files .getwd).2 = .ok cwd) (home path : String) (content : List UInt8) :
    (∃ model, ((getFileModelWithContent home path).run fs.answer files).2 = .ok (.ok model) ∧
      model.content = .text content) ↔
      ∃ info, (fs.answer files (.lstat (OpenNotebook.safePath cwd home path))).2 = .ok info ∧
        ∃ file, (fs.answer files (.readFile (OpenNotebook.safePath cwd home path))).2 = .ok file ∧
          fileContent (OpenNotebook.safePath cwd home path) file = content := by
  have resolved := OpenNotebook.run_getSafePath_of (Prod.ext (fs.kept files .getwd rfl) getwd) home path
  simp only [getFileModelWithContent,Program.run_bind,resolved]
  generalize OpenNotebook.safePath cwd home path = osPath
  have lstatKept : (fs.answer files (.lstat osPath)).1 = files := fs.kept files _ rfl
  cases looked : (fs.answer files (.lstat osPath)).2 with
  | error e => simp [looked]
  | ok info =>
    cases read : (fs.answer files (.readFile osPath)).2 with
    | error e => simp [looked,lstatKept,readFileContent,read]
    | ok file => simp [looked,lstatKept,readFileContent,read]

/-- A content that is no notebook is returned as a text where its path leads to a file. -/
theorem getContent_returns (fs : FileSystem Files) {cwd : String} {files : Files}
    (getwd : (fs.answer files .getwd).2 = .ok cwd) (home path contentType : String) (content : List UInt8) :
    (∃ model, ((getContent home path contentType).run fs.answer files).2 = .ok (.ok model) ∧
      model.content = .text content) ↔
      contentType ≠ "notebook" ∧
      ∃ info, (fs.answer files (.lstat (OpenNotebook.safePath cwd home path))).2 = .ok info ∧
        info.isDir = false ∧
        ∃ file, (fs.answer files (.readFile (OpenNotebook.safePath cwd home path))).2 = .ok file ∧
          fileContent (OpenNotebook.safePath cwd home path) file = content := by
  have modelled := run_getFileModelWithContent fs getwd home path content
  have resolved := OpenNotebook.run_getSafePath_of (Prod.ext (fs.kept files .getwd rfl) getwd) home path
  simp only [getContent,Program.run_bind,resolved,Program.run_call]
  generalize OpenNotebook.safePath cwd home path = osPath at modelled ⊢
  have lstatKept : (fs.answer files (.lstat osPath)).1 = files := fs.kept files _ rfl
  rw [lstatKept]
  cases looked : (fs.answer files (.lstat osPath)).2 with
  | error e => simp
  | ok info =>
    simp only [looked,Except.ok.injEq,exists_eq_left'] at modelled ⊢
    by_cases dir : info.isDir = true
    · -- a directory is listed, and what cannot be listed has no content
      simp only [dir,↓reduceIte,Bool.true_eq_false,false_and,and_false,iff_false]
      rintro ⟨model,ended,text⟩
      rw [Program.run_bind] at ended
      rcases listed : (getDirectoryModel home path).run fs.answer files with ⟨after,why | (e | entries)⟩
      · simp [listed] at ended
      · obtain rfl : ContentModel.zero = model := by simpa [listed] using ended
        simp [ContentModel.zero] at text
      · obtain rfl : entries = model := by simpa [listed] using ended
        obtain ⟨list,content⟩ := ends_getDirectoryModel (Program.ends_of_run (congrArg Prod.snd listed))
        simp [content] at text
    · by_cases notebook : contentType = "notebook"
      · simp only [dir,notebook,Bool.false_eq_true,↓reduceIte,ne_eq,not_true_eq_false,false_and,iff_false]
        rintro ⟨model,ended,text⟩
        rw [Program.run_bind] at ended
        rcases opened : (getNotebookModel home path).run fs.answer files with ⟨after,why | (e | nb)⟩
        · simp [opened] at ended
        · obtain rfl : ContentModel.zero = model := by simpa [opened] using ended
          simp [ContentModel.zero] at text
        · obtain rfl : nb = model := by simpa [opened] using ended
          obtain ⟨nb,content⟩ := ends_getNotebookModel (Program.ends_of_run (congrArg Prod.snd opened))
          simp [content] at text
      · rw [if_neg dir,if_neg notebook,Program.run_bind]
        rcases opened : (getFileModelWithContent home path).run fs.answer files with ⟨after,why | (e | file)⟩
        · simpa [opened,dir,notebook] using modelled
        · simpa [opened,dir,notebook,ContentModel.zero] using modelled
        · simpa [opened,dir,notebook] using modelled

/-- How a request for a content is answered. -/
def contentAnswer : Except OsError ContentModel → Response
  | .error _ => errorResponse 404 "Content not found" .none
  | .ok model => ⟨200,.content model⟩

/-- What a request for the content returns: the bytes of the target, if its path begins
    with `HomeDir`. -/
theorem returns_iff (disk : Disk Files) (home : String) (u : FileUpdate) (named : EndsInName u.path) {body : List UInt8}
    (asks : Asks u.path body) (files : Files) (content : List UInt8) :
    Returns content (answered disk files (contentAPIHandler home body)).2 ↔
      hasPrefix (target disk home u.path) home = true ∧
        disk.bytesAt files (names (target disk home u.path)) = some content := by
  obtain ⟨request,decoded,path,notNotebook⟩ := asks
  have given : u.path ≠ "" := by
    rintro none
    obtain ⟨n,last,name⟩ := named.last
    rw [none] at last
    exact name.1 (by simpa [eq_comm] using last)
  obtain ⟨contentType,other,handled⟩ : ∃ contentType ≠ "notebook",
      contentAPIHandler home body = getContent home u.path contentType >>= fun model => pure (contentAnswer model) := by
    refine ⟨if request.type ∈ allowedTypes then request.type else "file",?_,?_⟩
    · split_ifs <;> simp [notNotebook]
    · unfold contentAPIHandler
      rw [decoded]
      dsimp only
      rw [path,if_neg given,u.noUp,if_neg (by decide)]
      congr 1
      funext model
      cases model <;> rfl
  have got := getContent_returns disk.toFileSystem (disk.getwd_eq files) home u.path contentType content
  simp only [other,ne_eq,not_false_eq_true,true_and] at got
  have answer : Returns content (answered disk files (contentAPIHandler home body)).2 ↔
      ∃ model, ((getContent home u.path contentType).run disk.answer files).2 = .ok (.ok model) ∧
        model.content = .text content := by
    rw [answered,handled,Program.run_bind]
    rcases (getContent home u.path contentType).run disk.answer files with ⟨after,why | (e | model)⟩ <;>
      simp [Returns,contentAnswer,errorResponse]
  rw [answer,got]
  by_cases safe : hasPrefix (target disk home u.path) home = true
  · have resolved : OpenNotebook.safePath disk.cwd home u.path = target disk home u.path := if_pos safe
    have absolute : Absolute (target disk home u.path) := absolute_absPath disk.rooted _
    rw [resolved]
    simp only [safe,fileContent_target disk home u named,exists_eq_right,true_and,disk.readFile_iff files _ _ absolute]
    constructor
    · rintro ⟨info,looked,file,read⟩
      exact read
    · intro read
      obtain ⟨info,looked,file⟩ := disk.lstat_file files _ _ absolute read
      exact ⟨info,looked,file,read⟩
  · have resolved : OpenNotebook.safePath disk.cwd home u.path = "" := if_neg safe
    obtain ⟨e,none⟩ := disk.lstat_empty files
    rw [resolved]
    simp [safe,none]

/-! ## When the two meet -/

/-- There is a request for the content of each file. -/
theorem exists_asks (path : String) : ∃ body, Asks path body :=
  ⟨marshal (contentRequestBody.encode ⟨path,"file","",""⟩),⟨path,"file","",""⟩,
    decodeStream_marshal contentRequestBody_inverse.rereads _,rfl,by simp⟩

theorem agree_of_readsBack (writable : Writable disk files u) (back : ReadsBack disk home files u) :
    Agree disk home files u := by
  have named : EndsInName u.path := disk.writeFile_name files _ _ writable
  obtain ⟨body,asks⟩ := exists_asks u.path
  obtain ⟨returned,kept⟩ := back
  rw [update_written writable] at returned kept
  obtain ⟨resolved,read⟩ := (returns_iff disk home u named asks _ _).mp (returned body asks)
  refine ⟨resolved,?_,?_⟩
  · by_cases leads : disk.leads files (written disk u.path) (names (target disk home u.path))
    · exact .inl leads
    · right
      rw [← disk.writeFile_others files _ _ _ writable leads]
      exact read
  · intro place leads inProject other
    rw [← kept place inProject other]
    exact disk.writeFile_written files _ _ _ writable leads

theorem readsBack_of_agree (writable : Writable disk files u) (agree : Agree disk home files u) :
    ReadsBack disk home files u := by
  have named : EndsInName u.path := disk.writeFile_name files _ _ writable
  constructor
  · intro body asks
    rw [update_written writable]
    refine (returns_iff disk home u named asks _ _).mpr ⟨agree.resolved,?_⟩
    by_cases leads : disk.leads files (written disk u.path) (names (target disk home u.path))
    · exact disk.writeFile_written files _ _ _ writable leads
    · exact (disk.writeFile_others files _ _ _ writable leads).trans (agree.read.resolve_left leads)
  · intro place inProject other
    rw [update_written writable]
    by_cases leads : disk.leads files (written disk u.path) place
    · rw [agree.others place leads inProject other]
      exact disk.writeFile_written files _ _ _ writable leads
    · exact disk.writeFile_others files _ _ _ writable leads

end

/-- A server that is started in the project's directory reads back what it saves, where
    no other place leads to the file. -/
theorem readsBack_in_project {Files : Type} (disk : Disk Files) (shortest : clean disk.cwd = disk.cwd) (files : Files)
    (u : FileUpdate) (unlinked : ∀ place, disk.leads files (written disk u.path) place → place = written disk u.path) :
    Saved disk (homeDir disk.cwd ".") files u := by
  have absolute : Absolute disk.cwd := ⟨disk.rooted,shortest⟩
  have noUp : ∀ part ∈ [clean u.path], dotdot ∉ names part := by
    simpa [resolve_of_noUp _ u.names_noUp] using u.names_noUp
  have joined : Absolute (join [disk.cwd,clean u.path]) := absolute_join absolute _
  have resolved : target disk disk.cwd u.path = join [disk.cwd,clean u.path] := by
    rw [target,absPath_of_absolute joined]
  have same : names (target disk disk.cwd u.path) = written disk u.path := by
    have relative : absPath disk.cwd u.path = join [disk.cwd,u.path] := by simp [absPath,u.relative]
    rw [resolved,written,relative,names_join_home absolute noUp,names_join_home absolute (by simpa using u.names_noUp)]
    simp [resolve_of_noUp _ u.names_noUp]
  refine fun ok => readsBack_of_agree (answered_ok_iff.mp ok) ⟨?_,?_,?_⟩
  · change hasPrefix (target disk disk.cwd u.path) disk.cwd = true
    rw [resolved]
    exact hasPrefix_of_below absolute joined (below_join absolute noUp)
  · left
    change disk.leads files (written disk u.path) (names (target disk disk.cwd u.path))
    rw [same]
    exact disk.leads_self files _
  · intro place leads inProject other
    exact absurd ((unlinked place leads).trans same.symm) other

/-- A file that is saved reads back if and only if the system refuses to write it, or
    the file that is written and the one that is read agree. -/
theorem readsBack_iff {Files : Type} (disk : Disk Files) (flag : String) (files : Files) (u : FileUpdate) :
    Saved disk (homeDir disk.cwd flag) files u ↔
      (Writable disk files u → Agree disk (homeDir disk.cwd flag) files u) := by
  unfold Saved
  rw [answered_ok_iff]
  constructor
  · intro saved writable
    exact agree_of_readsBack writable (saved writable)
  · intro agree writable
    exact readsBack_of_agree writable (agree writable)

/-! ## A server that is started elsewhere -/

/-- A disk on which each place leads to a file of its own, in directories that are
    there; only files are written. -/
def flatAnswer (cwd : String) (files : Place → Option (List UInt8)) :
    (c : Call) → (Place → Option (List UInt8)) × Reply c
  | .getwd => (files,.ok cwd)
  | .lstat path | .stat path => (files,match files (names (absPath cwd path)) with
    | some bytes => if path = "" then .error ⟨true,"no such file"⟩
      else .ok ⟨base path,false,Int64.ofNat bytes.length,"2025-01-01T00:00:00Z"⟩
    | none => .error ⟨true,"no such file"⟩)
  | .readFile path => (files,match files (names (absPath cwd path)) with
    | some bytes => .ok bytes
    | none => .error ⟨true,"no such file"⟩)
  | .writeFile path bytes =>
    if EndsInName path then (Function.update files (names (absPath cwd path)) (some bytes),none)
    else (files,some ⟨false,"is a directory"⟩)
  | .openDir _ | .openFile _ | .mkdirAll _ | .rename _ _ | .remove _ => (files,some ⟨false,"permission denied"⟩)
  | .readDir _ => (files,([],none))

def flatDisk (cwd : String) (absolute : Absolute cwd) : Disk (Place → Option (List UInt8)) where
  answer := flatAnswer cwd
  kept files c reads := by cases c <;> first | rfl | cases reads
  cwd := cwd
  rooted := absolute.rooted
  bytesAt files place := files place
  leads _ place other := other = place
  leads_self _ _ := rfl
  getwd_eq _ := rfl
  lstat_empty files := by
    dsimp only [flatAnswer]
    split <;> exact ⟨_,rfl⟩
  lstat_file files path bytes absolute file := by
    have here := absPath_of_absolute absolute cwd
    simp [flatAnswer,here,file,absolute.ne_empty]
  readFile_iff files path bytes absolute := by
    have here := absPath_of_absolute absolute cwd
    dsimp only [flatAnswer]
    rw [here]
    cases files (names path) <;> simp
  writeFile_name files path bytes written := by
    by_contra unnamed
    simp [flatAnswer,unnamed] at written
  writeFile_written files path bytes place written leads := by
    have named : EndsInName path := by
      by_contra unnamed
      simp [flatAnswer,unnamed] at written
    simp [flatAnswer,named,leads]
  writeFile_others files path bytes place written other := by
    have named : EndsInName path := by
      by_contra unnamed
      simp [flatAnswer,unnamed] at written
    simp [flatAnswer,named,Function.update_of_ne other]

def notesRequest : ContentUpdateRequest := ⟨"notes.txt",.ofJson (.str "x"),"text","file"⟩

def notesUpdate : FileUpdate where
  body := marshal (contentUpdateRequest.encode notesRequest)
  path := "notes.txt"
  text := "x"
  decoded := ⟨notesRequest,decodeStream_marshal contentUpdateRequest_inverse.rereads _,rfl,rfl,
    by simp [notesRequest,Value.ofJson,denoted]⟩
  relative := by decide
  noUp := by decide
  noImage := by decide

/-- A file that is saved from another working directory is not found again. -/
theorem saved_elsewhere_lost :
    ¬ Saved (flatDisk "/home/u" (by decide)) (homeDir "/home/u" "/home/u/project") (fun _ => none) notesUpdate := by
  have writable : Writable (flatDisk "/home/u" (by decide)) (fun _ => none) notesUpdate := by
    have named : EndsInName "notes.txt" := by decide
    simp [Writable,flatDisk,flatAnswer,notesUpdate,named]
  intro saved
  have agree := agree_of_readsBack writable (saved (answered_ok_iff.mpr writable))
  rcases agree.read with same | file
  · have places : names (absPath "/home/u" (join ["/home/u/project",clean "notes.txt"])) =
        names (absPath "/home/u" "notes.txt") := same
    revert places
    decide
  · cases file

end Zasper.SavedFiles
