import Zasper.ContentApi

/-!
# Confinement

Which file calls stay in the project's directory. Every path that goes through
`getSafePath` does, since the handlers refuse `..` first; an update writes to the
path it is given (`confined_iff`).
-/
namespace Zasper.Confinement
open Zasper.JsonValues Zasper.JsonText Zasper.Strings Zasper.Structs Zasper.Paths Zasper.Programs Zasper.OperatingSystem
open Zasper.ContentManager Zasper.ContentApi
set_option linter.unusedSimpArgs false
-- what a body decodes to does not matter to the paths
attribute [local irreducible] Codec.decodeStream

/-- The project's directory. -/
structure HomeDir where
  path : String
  absolute : Absolute path

/-- The path, seen from the working directory, is the project's directory or lies in
    it; the empty path leads nowhere. -/
def Inside (cwd : String) (home : HomeDir) (path : String) : Prop := path = "" ∨ Below home.path (absPath cwd path)

instance (cwd : String) (home : HomeDir) (path : String) : Decidable (Inside cwd home path) :=
  inferInstanceAs (Decidable (_ ∨ _))

def Stays (cwd : String) (home : HomeDir) (c : Call) : Prop := ∀ path ∈ c.paths, Inside cwd home path

section
variable {cwd : String} {home : HomeDir}

/-- An absolute path of the project, in its shortest form. -/
structure Safe (home : HomeDir) (path : String) : Prop where
  absolute : Absolute path
  below : Below home.path path

theorem Safe.inside {path : String} (safe : Safe home path) : Inside cwd home path := by
  refine .inr ?_
  rw [absPath_of_absolute safe.absolute]
  exact safe.below

/-- No reply is needed: the path that is joined to the directory is an absolute one. -/
theorem getSafePath_eq (home : HomeDir) (path : String) : getSafePath home.path path =
    pure (if hasPrefix (join [home.path,clean path]) home.path then join [home.path,clean path] else "") := by
  have absolute := absolute_join home.absolute [clean path]
  simp [getSafePath,filepathAbs,absolute.rooted,absolute.shortest]

/-- A path that does not go up is resolved to a path of the project. -/
theorem getSafePath_noUp {path : String} (noUp : dotdot ∉ names path) :
    ∃ safe, getSafePath home.path path = pure safe ∧ Safe home safe := by
  have cleanNoUp : ∀ part ∈ [clean path], dotdot ∉ names part := by
    simpa [resolve_of_noUp _ noUp] using noUp
  have absolute := absolute_join home.absolute [clean path]
  have below := below_join home.absolute cleanNoUp
  refine ⟨join [home.path,clean path],?_,absolute,below⟩
  rw [getSafePath_eq,if_pos (hasPrefix_of_below home.absolute absolute below)]

theorem safe_join {path : String} (safe : Safe home path) {rest : List String}
    (noUp : ∀ part ∈ rest, dotdot ∉ names part) : Safe home (join (path :: rest)) :=
  ⟨absolute_join safe.absolute rest,safe.below.trans (below_join safe.absolute noUp)⟩

/-- A text with no slash in it whose first character is no point is no `..`. -/
theorem noUp_single {c : Char} {cs : List Char} (first : c ≠ '.') (single : '/' ∉ c :: cs) :
    dotdot ∉ names (String.ofList (c :: cs)) := by
  intro member
  have piece : dotdot ∈ cutAt '/' (c :: cs) := by
    simpa using (List.mem_filter.mp member).1
  rw [cutAt_of_not_mem single,List.mem_singleton] at piece
  exact first (List.cons.inj piece).1.symm

theorem noUp_numbered (start ending : String) {c : Char} {cs : List Char} (text : start.toList = c :: cs)
    (first : c ≠ '.') (single : '/' ∉ start.toList) (singleEnding : '/' ∉ ending.toList) (i : Nat) :
    dotdot ∉ names (numbered start ending i) := by
  have digits : '/' ∉ Nat.toDigits 10 i := fun member => absurd (toDigits_digits i _ member) (by decide)
  have whole : numbered start ending i = String.ofList (c :: (cs ++ Nat.toDigits 10 i ++ ending.toList)) := by
    rw [← String.toList_inj]
    simp [numbered,text]
  rw [whole]
  refine noUp_single first ?_
  rw [text] at single
  simp only [← List.cons_append,List.mem_append,not_or]
  exact ⟨⟨single,digits⟩,singleEnding⟩

/-! ## Calls -/

section
variable {α β : Type} {path : String} {next : Os β}

/-- A call on one path of the project. -/
theorem calls_safe {c : Call} {next : Reply c → Os α} (safe : Safe home path) (paths : c.paths = [path])
    (later : ∀ reply, (next reply).Calls (Stays cwd home)) : (Program.call c next).Calls (Stays cwd home) := by
  refine ⟨fun given member => ?_,later⟩
  rw [paths,List.mem_singleton] at member
  exact member ▸ safe.inside

theorem calls_bind_of {p : Os α} {f : α → Os β} (first : p.Calls (Stays cwd home))
    (later : ∀ a, (f a).Calls (Stays cwd home)) : (p >>= f).Calls (Stays cwd home) :=
  Program.calls_bind.mpr ⟨first,fun a _ => later a⟩

theorem calls_resolved {f : String → Os β} (noUp : dotdot ∉ names path)
    (later : ∀ safe, Safe home safe → (f safe).Calls (Stays cwd home)) :
    (getSafePath home.path path >>= f).Calls (Stays cwd home) := by
  obtain ⟨safe,resolved,within⟩ := getSafePath_noUp noUp
  rw [resolved]
  exact later safe within

end

/-! ## Reading -/

theorem calls_readFileContent {path : String} (safe : Safe home path) :
    (readFileContent path).Calls (Stays cwd home) := by
  refine calls_safe safe rfl ?_
  intro reply
  cases reply <;> trivial

theorem calls_getNotebookModel {path : String} (noUp : dotdot ∉ names path) :
    (getNotebookModel home.path path).Calls (Stays cwd home) := by
  refine calls_resolved noUp (fun safe within => calls_safe within rfl (fun reply => ?_))
  cases reply with
  | error e => trivial
  | ok info =>
    refine calls_bind_of (calls_readFileContent within) ?_
    intro content
    cases content <;> trivial

theorem calls_getFileModelWithContent {path : String} (noUp : dotdot ∉ names path) :
    (getFileModelWithContent home.path path).Calls (Stays cwd home) := by
  refine calls_resolved noUp (fun safe within => calls_safe within rfl (fun reply => ?_))
  cases reply with
  | error e => trivial
  | ok info =>
    refine calls_bind_of (calls_readFileContent within) ?_
    intro content
    cases content <;> trivial

/-- The entries of a directory of the project lie in the project. -/
theorem calls_getFileModels {abspath : String} (safe : Safe home abspath) (relativePath : String) (files : List EntryName) :
    (getFileModels abspath relativePath files).Calls (Stays cwd home) := by
  induction files with
  | nil => trivial
  | cons v files ih =>
    have entry : Safe home (join [abspath,v.name]) := safe_join safe (by simpa using v.noUp)
    refine calls_bind_of (calls_safe entry rfl ?_) ?_
    · intro reply
      cases reply <;> trivial
    · intro model
      exact calls_bind_of ih (fun rest => trivial)

theorem calls_getDirectoryModel {path : String} (noUp : dotdot ∉ names path) :
    (getDirectoryModel home.path path).Calls (Stays cwd home) := by
  refine calls_resolved noUp (fun safe within => calls_safe within rfl (fun reply => ?_))
  cases reply with
  | error e => trivial
  | ok info =>
    refine calls_safe within rfl (fun opened => calls_bind_of ?_ ?_)
    · cases opened with
      | none => exact calls_safe within rfl (fun reply => trivial)
      | some e => trivial
    · intro listed
      exact calls_bind_of (calls_getFileModels within path listed.1) (fun models => trivial)

theorem calls_getContent {path : String} (noUp : dotdot ∉ names path) (contentType : String) :
    (getContent home.path path contentType).Calls (Stays cwd home) := by
  refine calls_resolved noUp (fun safe within => calls_safe within rfl (fun reply => ?_))
  cases reply with
  | error e => trivial
  | ok info =>
    dsimp only
    split_ifs
    · exact calls_bind_of (calls_getDirectoryModel noUp) (fun model => trivial)
    · exact calls_bind_of (calls_getNotebookModel noUp) (fun model => trivial)
    · exact calls_bind_of (calls_getFileModelWithContent noUp) (fun model => trivial)

/-! ## Creating, renaming and deleting -/

theorem keeps_fileExists {path : String} (safe : Safe home path) :
    (fileExists path).Keeps (Stays cwd home) (fun _ => True) := by
  refine ⟨calls_safe safe rfl (fun reply => ?_),fun _ _ => trivial⟩
  cases reply <;> trivial

theorem keeps_directoryExists {path : String} (safe : Safe home path) :
    (directoryExists path).Keeps (Stays cwd home) (fun _ => True) := by
  refine ⟨calls_safe safe rfl (fun reply => ?_),fun _ _ => trivial⟩
  cases reply <;> trivial

/-- The path that is found lies in the project too: by induction on the fuel. -/
theorem keeps_freePath (cwd : String) {parentDir start ending : String} (within : Safe home parentDir)
    (single : ∀ i, dotdot ∉ names (numbered start ending i)) (fuel : Nat) :
    ∀ (i : Nat) (path : String), Safe home path →
      (freePath parentDir start ending fuel i path).Keeps (Stays cwd home) (Safe home) := by
  induction fuel with
  | zero => exact fun i path here => Program.keeps_stop ..
  | succ fuel ih =>
    intro i path here
    refine Program.keeps_bind (keeps_fileExists here) ?_
    intro taken _
    cases taken with
    | true => exact ih (i+1) _ (safe_join within (by simpa using single (i+1)))
    | false => exact Program.keeps_pure here

theorem keeps_freeDirectory (cwd : String) {parentDir dirName : String} (noUp : dotdot ∉ names parentDir)
    (single : ∀ i, dotdot ∉ names (numbered (dirName ++ "-") "" i)) (fuel : Nat) :
    ∀ (i : Nat) (dirPath : String), Safe home dirPath →
      (freeDirectory home.path parentDir dirName fuel i dirPath).Keeps (Stays cwd home) (Safe home) := by
  induction fuel with
  | zero => exact fun i path here => Program.keeps_stop ..
  | succ fuel ih =>
    intro i dirPath here
    refine Program.keeps_bind (keeps_directoryExists here) ?_
    intro taken _
    cases taken with
    | true =>
      have next : dotdot ∉ names (join [parentDir,numbered (dirName ++ "-") "" (i+1)]) :=
        noUp_join (by simpa using ⟨noUp,single (i+1)⟩)
      obtain ⟨safe,resolved,within⟩ : ∃ safe, _ = pure safe ∧ Safe home safe := getSafePath_noUp next
      simp only [↓reduceIte,resolved,Program.pure_bind]
      exact ih (i+1) safe within
    | false => exact Program.keeps_pure here

theorem calls_statCreated (payload : ContentPayload) {path : String} (safe : Safe home path) :
    (statCreated payload path).Calls (Stays cwd home) := by
  refine calls_safe safe rfl (fun reply => calls_bind_of ?_ (fun info => trivial))
  exact Program.calls_follow ..

theorem calls_newUntitledFile (fuel : Nat) {payload : ContentPayload} (noUp : dotdot ∉ names payload.parentDir) :
    (newUntitledFile fuel home.path payload).Calls (Stays cwd home) := by
  refine calls_resolved noUp ?_
  intro parentDir within
  have first : Safe home (join [parentDir,"untitled.txt"]) := safe_join within (by decide)
  have single := noUp_numbered "untitled" ".txt" rfl (by decide) (by decide) (by decide)
  obtain ⟨calls,ends⟩ := keeps_freePath cwd within single fuel 0 _ first
  refine Program.calls_bind.mpr ⟨calls,fun path found => ?_⟩
  exact calls_safe (ends path found) rfl (fun reply => calls_statCreated payload (ends path found))

theorem calls_newUntitledNotebook (fuel : Nat) {payload : ContentPayload} (noUp : dotdot ∉ names payload.parentDir) :
    (newUntitledNotebook fuel home.path payload).Calls (Stays cwd home) := by
  refine calls_resolved noUp ?_
  intro parentDir within
  have first : Safe home (join [parentDir,"Untitled.ipynb"]) := safe_join within (by decide)
  have single := noUp_numbered "Untitled" ".ipynb" rfl (by decide) (by decide) (by decide)
  obtain ⟨calls,ends⟩ := keeps_freePath cwd within single fuel 0 _ first
  refine Program.calls_bind.mpr ⟨calls,fun path found => ?_⟩
  exact calls_safe (ends path found) rfl (fun opened => calls_safe (ends path found) rfl (fun written =>
    calls_statCreated payload (ends path found)))

theorem calls_createDirectory (fuel : Nat) {payload : ContentPayload} (noUp : dotdot ∉ names payload.parentDir) :
    (createDirectory fuel home.path payload).Calls (Stays cwd home) := by
  have name : dotdot ∉ names "untitled-directory" := by decide
  have single := noUp_numbered ("untitled-directory" ++ "-") "" rfl (by decide) (by decide) (by decide)
  refine calls_resolved (noUp_join (by simpa using ⟨noUp,name⟩)) ?_
  intro first within
  obtain ⟨calls,ends⟩ := keeps_freeDirectory cwd noUp single fuel 0 _ within
  refine Program.calls_bind.mpr ⟨calls,fun path found => ?_⟩
  exact calls_safe (ends path found) rfl (fun reply => trivial)

theorem calls_createContent (fuel : Nat) {payload : ContentPayload} (noUp : dotdot ∉ names payload.parentDir) :
    (createContent fuel home.path payload).Calls (Stays cwd home) := by
  unfold createContent
  split_ifs
  · exact calls_newUntitledNotebook fuel noUp
  · exact calls_createDirectory fuel noUp
  · exact calls_newUntitledFile fuel noUp

theorem calls_rename {parentDir oldName newName : String} (noUp : dotdot ∉ names parentDir)
    (oldNoUp : dotdot ∉ names oldName) (newNoUp : dotdot ∉ names newName) :
    (rename home.path parentDir oldName newName).Calls (Stays cwd home) := by
  refine calls_resolved (noUp_join (by simpa using ⟨noUp,oldNoUp⟩)) ?_
  intro old oldWithin
  refine calls_resolved (noUp_join (by simpa using ⟨noUp,newNoUp⟩)) ?_
  intro new newWithin
  refine ⟨?_,fun reply => trivial⟩
  simpa [Stays,Call.paths] using ⟨oldWithin.inside,newWithin.inside⟩

theorem calls_deleteFile {filename : String} (noUp : dotdot ∉ names filename) :
    (deleteFile home.path filename).Calls (Stays cwd home) :=
  calls_resolved noUp (fun _ within => calls_safe within rfl (fun _ => trivial))

/-! ## Handlers -/

theorem calls_contentAPIHandler (body : List UInt8) : (contentAPIHandler home.path body).Calls (Stays cwd home) := by
  unfold contentAPIHandler
  split
  · trivial
  · rename_i body decoded
    generalize (if body.path = "" then "." else body.path) = relativePath
    generalize (if body.type ∈ allowedTypes then body.type else "file") = contentType
    dsimp only
    split_ifs with up
    · trivial
    · have noUp : dotdot ∉ names relativePath := noUp_of_contains (by simpa using up)
      refine calls_bind_of (calls_getContent noUp contentType) ?_
      intro model
      cases model <;> trivial

theorem calls_contentDeleteAPIHandler (body : List UInt8) :
    (contentDeleteAPIHandler home.path body).Calls (Stays cwd home) := by
  unfold contentDeleteAPIHandler
  split
  · trivial
  · split_ifs with absent
    · trivial
    · exact calls_bind_of (calls_deleteFile (noUp_of_contains (by simpa using absent))) (fun _ => trivial)

theorem calls_contentCreateAPIHandler (fuel : Nat) (body : List UInt8) :
    (contentCreateAPIHandler fuel home.path body).Calls (Stays cwd home) := by
  unfold contentCreateAPIHandler
  dsimp only
  generalize (contentPayload.decodeStream body contentPayload.zero).1 = payload
  split_ifs with absent
  · trivial
  · exact calls_bind_of (calls_createContent fuel (noUp_of_contains (by simpa using absent))) (fun _ => trivial)

theorem calls_contentRenameAPIHandler (body : List UInt8) :
    (contentRenameAPIHandler home.path body).Calls (Stays cwd home) := by
  unfold contentRenameAPIHandler
  dsimp only
  generalize (renameContentPayload.decodeStream body renameContentPayload.zero).1 = payload
  split_ifs with absent
  · trivial
  · simp only [Bool.or_eq_true,not_or,Bool.not_eq_true] at absent
    obtain ⟨⟨parent,old⟩,new⟩ := absent
    exact calls_bind_of (calls_rename (noUp_of_contains parent) (noUp_of_contains old) (noUp_of_contains new))
      (fun _ => trivial)

/-! ## Updates -/

/-- Whether the content is a text. -/
def isTextContent (content : Value) : Bool :=
  match content.json with
  | .str _ => true
  | _ => false

/-- Whether an update writes its content. -/
def writes (request : ContentUpdateRequest) : Bool :=
  if request.type = "notebook" then (notebookBytes request.content).isOk
  else request.type = "file" && isTextContent request.content

/-- The path that a request writes to, if it is an update that does. -/
def writtenPath : Request → Option String
  | .update body =>
    match contentUpdateRequest.decodeStream body contentUpdateRequest.zero with
    | (_,some _) => none
    | (request,none) => if !contains request.path ".." && writes request then some request.path else none
  | _ => none

/-- A write stays in the project when its path does. -/
theorem calls_write {path : String} {bytes : List UInt8} {next : Reply (.writeFile path bytes) → Os Response}
    (later : ∀ reply, (next reply).Calls (Stays cwd home)) :
    (Program.call (.writeFile path bytes) next).Calls (Stays cwd home) ↔ Inside cwd home path := by
  constructor
  · exact fun calls => calls.1 path (by simp [Call.paths])
  · exact fun inside => ⟨by simpa [Stays,Call.paths] using inside,later⟩

theorem calls_updateNotebook (request : ContentUpdateRequest) :
    (updateNotebook request).Calls (Stays cwd home) ↔
      ((notebookBytes request.content).isOk = true → Inside cwd home request.path) := by
  unfold updateNotebook updateNbContent
  cases notebookBytes request.content with
  | error e => simp [Except.isOk,Except.toBool]
  | ok bytes =>
    refine (calls_write (fun reply => ?_)).trans (by simp [Except.isOk,Except.toBool])
    cases reply <;> trivial

theorem calls_updateFile (request : ContentUpdateRequest) :
    (updateFile request).Calls (Stays cwd home) ↔
      (isTextContent request.content = true → Inside cwd home request.path) := by
  unfold updateFile isTextContent
  cases content : request.content.json with
  | str v =>
    refine (calls_write (fun reply => ?_)).trans (by simp)
    cases reply <;> trivial
  | _ => simp

theorem calls_contentUpdateAPIHandler (body : List UInt8) :
    (contentUpdateAPIHandler body).Calls (Stays cwd home) ↔
      ∀ path ∈ writtenPath (.update body), Inside cwd home path := by
  unfold contentUpdateAPIHandler writtenPath writes
  split
  · rename_i decoded
    simp [decoded]
  · rename_i request decoded
    by_cases up : contains request.path ".." = true
    · simp [decoded,up]
    · by_cases notebook : request.type = "notebook"
      · simp [decoded,up,notebook,calls_updateNotebook]
      · by_cases file : request.type = "file"
        · simp [decoded,up,file,calls_updateFile]
        · simp [decoded,up,notebook,file]

/-- Every path that the request's handler gives to a file call stays in the project. -/
def Confined (cwd : String) (home : HomeDir) (request : Request) : Prop :=
  ∀ fuel, (serve fuel home.path request).Calls (Stays cwd home)

theorem confined_iff (cwd : String) (home : HomeDir) (request : Request) :
    Confined cwd home request ↔ ∀ path ∈ writtenPath request, Inside cwd home path := by
  cases request with
  | update body =>
    rw [← calls_contentUpdateAPIHandler]
    exact ⟨fun confined => confined 0,fun calls _ => calls⟩
  | content body => exact ⟨fun _ => by simp [writtenPath],fun _ _ => calls_contentAPIHandler body⟩
  | delete body => exact ⟨fun _ => by simp [writtenPath],fun _ _ => calls_contentDeleteAPIHandler body⟩
  | create body => exact ⟨fun _ => by simp [writtenPath],fun _ fuel => calls_contentCreateAPIHandler fuel body⟩
  | rename body => exact ⟨fun _ => by simp [writtenPath],fun _ _ => calls_contentRenameAPIHandler body⟩

theorem escapes_of_written {body : List UInt8} {path : String} (written : writtenPath (.update body) = some path)
    (outside : ¬ Inside cwd home path) : ¬ Confined cwd home (.update body) :=
  fun confined => outside ((calls_contentUpdateAPIHandler body).mp (confined 0) path written)

theorem writtenPath_update {request : ContentUpdateRequest} (allowed : contains request.path ".." = false)
    (write : writes request = true) :
    writtenPath (.update (marshal (contentUpdateRequest.encode request))) = some request.path := by
  rw [writtenPath,decodeStream_marshal contentUpdateRequest_inverse.rereads]
  simp [allowed,write]

/-- An update of a file by its absolute path. -/
def absoluteUpdate : ContentUpdateRequest := ⟨"/etc/passwd",.ofJson (.str "x"),"text","file"⟩

theorem absoluteUpdate_escapes :
    ¬ Confined "/srv" ⟨"/home/user/project",by decide⟩ (.update (marshal (contentUpdateRequest.encode absoluteUpdate))) := by
  have write : writes absoluteUpdate = true := by simp [writes,absoluteUpdate,isTextContent,Value.ofJson,denoted]
  exact escapes_of_written (writtenPath_update (by decide) write) (by decide)

end
end Zasper.Confinement
