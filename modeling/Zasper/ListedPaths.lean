import Zasper.Volumes

/-!
# Listed paths

Whether everything that a directory lists can be opened. From the path `.` on, the
paths of the listed entries are followed to any depth. `openable_iff` says for which
trees and which spellings of `HomeDir` each of them is accepted and resolved to the
entry it was listed for: two points in a name are refused also where they are no `..`.
-/
namespace Zasper.ListedPaths
open Zasper.JsonText Zasper.Strings Zasper.Structs Zasper.Paths Zasper.Programs Zasper.OperatingSystem Zasper.ContentManager Zasper.ContentApi
open Zasper.SavedFiles Zasper.Volumes
open Zasper.OpenNotebook (safePath)
set_option linter.unusedSimpArgs false

/-- The body asks for the content of a path. -/
def Requests (path : String) (body : List UInt8) : Prop :=
  ∃ request, contentRequestBody.decodeStream body contentRequestBody.zero = (request,none) ∧ request.path = path

/-- The path that is looked up for the path of a request. -/
def lookedUp (path : String) : String := if path = "" then "." else path

section
variable {Files : Type} (host : Host Files) (home : String) (files : Files)

/-- What a request for a content is answered with. -/
def answered (body : List UInt8) : Except Stop Response := ((contentAPIHandler home body).run host.answer files).2

/-- No request for the path is refused. -/
def Accepted (path : String) : Prop :=
  ∀ body response, Requests path body → answered host home files body = .ok response → response.status ≠ 400

/-- There is a directory at the path, and the entry is one of its entries. -/
structure HasEntry (path : String) (v : EntryName) : Prop where
  directory : ∃ info, (host.answer files (.lstat path)).2 = .ok info ∧ info.isDir = true
  opened : (host.answer files (.openDir path)).2 = none
  listed : ∃ vs, (host.answer files (.readDir path)).2 = (vs,none) ∧ v ∈ vs

/-- The places of the tree under `HomeDir`. -/
inductive InTree : Place → Prop where
  | root : InTree (root host.cwd home)
  | entry {place : Place} {v : EntryName} (inTree : InTree place) (has : HasEntry host files (render true place) v) :
      InTree (place ++ [v.name.toList])

/-- The model that is made for an entry of a directory. -/
def entryModel (abspath relativePath : String) (v : EntryName) : EntryModel :=
  match ((getFileModel abspath relativePath v.name).run host.answer files).2 with
  | .ok (.ok model) => model
  | _ => .zero

/-- The answer to a request for the path lists an entry, as the model `e`. -/
structure Lists (path : String) (v : EntryName) (e : EntryModel) : Prop where
  entry : v ∈ (host.answer files (.readDir (safePath host.cwd home (lookedUp path)))).2.1
  model : e = entryModel host files (safePath host.cwd home (lookedUp path)) (lookedUp path) v
  listed : ∃ body model list, Requests path body ∧ answered host home files body = .ok ⟨200,.content model⟩ ∧
    model.content = .entries list ∧ e ∈ list

/-- The paths that are reached from `.` through the paths of listed entries, each with
    the place of the entry that it was listed for. -/
inductive Reached : String → Place → Prop where
  | start : Reached "." (root host.cwd home)
  | entry {path : String} {place : Place} {v : EntryName} {e : EntryModel} (reached : Reached path place)
      (lists : Lists host home files path v e) : Reached e.path (place ++ [v.name.toList])

/-- The path is accepted, and resolved to the absolute path of the place. -/
structure Opens (path : String) (place : Place) : Prop where
  accepted : Accepted host home files path
  resolved : safePath host.cwd home path = render true place

/-- Every entry that is listed, at any depth, can be opened with its path. -/
def Openable : Prop := ∀ path place v e, Reached host home files path place → Lists host home files path v e →
  Opens host home files e.path (place ++ [v.name.toList])

/-- No name in the tree has two points in a row, and each entry can be looked up. -/
structure Plain : Prop where
  named : ∀ place v, InTree host home files place → HasEntry host files (render true place) v →
    contains v.name ".." = false
  found : ∀ place v, InTree host home files place → HasEntry host files (render true place) v →
    ∃ info, (host.answer files (.lstat (render true (place ++ [v.name.toList])))).2 = .ok info

end

/-! ## Names -/

theorem infix_cons {α : Type} {sep : α} {part before after : List α} (single : sep ∉ part)
    (inside : part <:+: before ++ sep :: after) : part <:+: before ∨ part <:+: after := by
  obtain ⟨s,t,text⟩ := inside
  rw [List.append_assoc] at text
  rcases List.append_eq_append_iff.mp text with ⟨mid,rfl,rest⟩ | ⟨mid,rfl,rest⟩
  · rcases List.append_eq_append_iff.mp rest with ⟨tail,rfl,_⟩ | ⟨tail,rfl,cut⟩
    · exact .inl ⟨s,tail,by simp⟩
    · cases tail with
      | nil => exact .inl ⟨s,[],by simp⟩
      | cons c tail =>
        obtain ⟨rfl,_⟩ := List.cons.inj cut
        exact absurd (by simp) single
  · cases mid with
    | nil =>
      cases part with
      | nil => exact .inl List.nil_infix
      | cons c part =>
        obtain ⟨rfl,_⟩ := List.cons.inj rest
        exact absurd (by simp) single
    | cons c mid =>
      obtain ⟨_,rfl⟩ := List.cons.inj rest
      exact .inr ⟨mid,t,by simp⟩

/-- Two points in a path stand in a name of it. -/
theorem contains_slash {before after : String} (first : contains before ".." = false)
    (second : contains after ".." = false) : contains (before ++ "/" ++ after) ".." = false := by
  rw [Bool.eq_false_iff] at first second ⊢
  intro both
  have text : (before ++ "/" ++ after).toList = before.toList ++ '/' :: after.toList := by simp
  have inside := contains_iff.mp both
  rw [text] at inside
  rcases infix_cons (by decide) inside with here | there
  · exact first (contains_iff.mpr here)
  · exact second (contains_iff.mpr there)

theorem contains_suffix (before after : String) (up : contains after ".." = true) :
    contains (before ++ "/" ++ after) ".." = true := by
  have text : (before ++ "/" ++ after).toList = (before.toList ++ ['/']) ++ after.toList := by simp
  rw [contains_iff,text]
  exact (contains_iff.mp up).trans (List.suffix_append ..).isInfix

/-- The path names the place: it is relative, without `..`, and its names follow those
    of `HomeDir`. -/
structure Spells (cwd home path : String) (place : Place) : Prop where
  given : path ≠ ""
  relative : isAbs path = false
  plain : contains path ".." = false
  placed : place = root cwd home ++ names path

/-- The path of an entry in the answer. -/
def entryPath (relativePath fileName : String) : String :=
  if relativePath = "." then fileName else relativePath ++ "/" ++ fileName

theorem spells_dot (cwd home : String) : Spells cwd home "." (root cwd home) := by
  have dotNames : names "." = [] := by decide
  exact ⟨by decide,by decide,by decide,by simp [dotNames]⟩

theorem spells_entry {cwd home path : String} {place : Place} (spells : Spells cwd home path place) (v : EntryName)
    (plain : contains v.name ".." = false) : Spells cwd home (entryPath path v.name) (place ++ [v.name.toList]) := by
  unfold entryPath
  by_cases start : path = "."
  · subst start
    have dotNames : names "." = [] := by decide
    have placed := spells.placed
    rw [dotNames,List.append_nil] at placed
    rw [if_pos rfl,placed]
    exact ⟨v.ne_empty,v.isAbs_eq,plain,by rw [v.names_eq]⟩
  · rw [if_neg start]
    constructor
    · intro none
      have text := congrArg String.toList none
      simp at text
    · rw [String.append_assoc,isAbs_append spells.given,spells.relative]
    · exact contains_slash spells.plain plain
    · rw [names_slash,v.names_eq,← List.append_assoc,← spells.placed]

theorem Spells.resolved {cwd home path : String} {place : Place} (rooted : isAbs cwd = true)
    (resolves : Resolves cwd home) (spells : Spells cwd home path place) : safePath cwd home path = render true place := by
  rw [safePath_below rooted resolves spells.relative (noUp_of_contains spells.plain),spells.placed]

/-- The absolute path of the place, and its names. -/
theorem Spells.absolute {cwd home path : String} {place : Place} (rooted : isAbs cwd = true)
    (spells : Spells cwd home path place) : Absolute (render true place) ∧ names (render true place) = place := by
  have valid : ∀ n ∈ place, Name n := by
    intro n inside
    rw [spells.placed] at inside
    rcases List.mem_append.mp inside with above | within
    · exact names_name _ n above
    · exact names_name _ n within
  have noUp : dotdot ∉ place := by
    intro up
    rw [spells.placed] at up
    rcases List.mem_append.mp up with above | within
    · exact (absolute_absPath rooted home).noUp above
    · exact noUp_of_contains spells.plain within
  exact ⟨absolute_render valid noUp,names_render true valid⟩

/-! ## The answer for a directory -/

section
variable {Files : Type} {host : Host Files} {home : String} {files : Files}

theorem run_getFileModel (host : Host Files) (files : Files) (abspath relativePath : String) (v : EntryName) :
    ∃ model, (getFileModel abspath relativePath v.name).run host.answer files = (files,.ok model) ∧
      entryModel host files abspath relativePath v = match model with
        | .ok model => model
        | .error _ => .zero := by
  have lstatKept : (host.answer files (.lstat (join [abspath,v.name]))).1 = files := host.kept files _ rfl
  unfold entryModel getFileModel
  rw [Program.run_call,lstatKept]
  cases (host.answer files (.lstat (join [abspath,v.name]))).2 with
  | error e => exact ⟨_,rfl,rfl⟩
  | ok info => exact ⟨_,rfl,rfl⟩

theorem run_getFileModels (host : Host Files) (files : Files) (abspath relativePath : String) (vs : List EntryName) :
    (getFileModels abspath relativePath vs).run host.answer files =
      (files,.ok (vs.map (entryModel host files abspath relativePath))) := by
  induction vs with
  | nil => rfl
  | cons v vs ih =>
    obtain ⟨model,run,made⟩ := run_getFileModel host files abspath relativePath v
    rw [getFileModels,Program.run_bind,run]
    cases model with
    | error e => simp only [Program.run_bind,ih,Program.run_pure,List.map_cons,made]
    | ok model => simp only [Program.run_bind,ih,Program.run_pure,List.map_cons,made]

/-- The model of an entry that is found, and of one that is not. -/
theorem entryModel_path (abspath relativePath : String) (v : EntryName) :
    (entryModel host files abspath relativePath v).path = entryPath relativePath v.name ∧
      (∃ info, (host.answer files (.lstat (join [abspath,v.name]))).2 = .ok info) ∨
    (entryModel host files abspath relativePath v).path = "" ∧
      ¬ ∃ info, (host.answer files (.lstat (join [abspath,v.name]))).2 = .ok info := by
  unfold entryModel getFileModel
  rw [Program.run_call]
  cases (host.answer files (.lstat (join [abspath,v.name]))).2 with
  | error e => right; simp [EntryModel.zero]
  | ok info => left; simp [entryPath]

/-- What a directory is opened as. -/
theorem run_getDirectoryModel (host : Host Files) (home : String) (files : Files) (relativePath : String)
    (e : EntryModel) :
    (∃ model list, ((getDirectoryModel home relativePath).run host.answer files).2 = .ok (.ok model) ∧
      model.content = .entries list ∧ e ∈ list) ↔
      (∃ info, (host.answer files (.lstat (safePath host.cwd home relativePath))).2 = .ok info) ∧
        (host.answer files (.openDir (safePath host.cwd home relativePath))).2 = none ∧
        ∃ vs, (host.answer files (.readDir (safePath host.cwd home relativePath))).2 = (vs,none) ∧
          e ∈ vs.map (entryModel host files (safePath host.cwd home relativePath) relativePath) := by
  simp only [getDirectoryModel,getDirectoryModelBy,Program.run_bind,host.run_getSafePath,Program.run_call]
  generalize safePath host.cwd home relativePath = abspath
  have lstatKept : (host.answer files (.lstat abspath)).1 = files := host.kept files _ rfl
  have openKept : (host.answer files (.openDir abspath)).1 = files := host.kept files _ rfl
  have readKept : (host.answer files (.readDir abspath)).1 = files := host.kept files _ rfl
  rw [lstatKept]
  cases looked : (host.answer files (.lstat abspath)).2 with
  | error e => simp
  | ok info =>
    simp only [Program.run_call,openKept]
    cases opened : (host.answer files (.openDir abspath)).2 with
    | some e => simp [readOpened,Program.run_bind,getFileModels]
    | none =>
      rcases listed : (host.answer files (.readDir abspath)).2 with ⟨vs,_ | err⟩
      · simp [readOpened,Program.run_bind,readKept,listed,run_getFileModels]
      · simp [readOpened,Program.run_bind,readKept,listed,run_getFileModels]

/-- A file or a notebook is answered without entries. -/
theorem not_entries {home relativePath : String} {read : Except OsError ContentModel}
    (ends : (getNotebookModel home relativePath).Ends read ∨ (getFileModelWithContent home relativePath).Ends read)
    (list : List EntryModel) :
    (match read with
      | .ok model => model
      | .error _ => .zero).content ≠ .entries list := by
  cases read with
  | error why => simp [ContentModel.zero]
  | ok model =>
    rcases ends with notebook | file
    · obtain ⟨nb,content⟩ := ends_getNotebookModel notebook
      simp [content]
    · obtain ⟨bytes,content⟩ := ends_getFileModelWithContent file
      simp [content]

/-- Only a directory is answered with entries. -/
theorem run_getContent (host : Host Files) (home : String) (files : Files) (relativePath contentType : String)
    (e : EntryModel) :
    (∃ model list, ((getContent home relativePath contentType).run host.answer files).2 = .ok (.ok model) ∧
      model.content = .entries list ∧ e ∈ list) ↔
      ∃ v, HasEntry host files (safePath host.cwd home relativePath) v ∧
        entryModel host files (safePath host.cwd home relativePath) relativePath v = e := by
  have directory := run_getDirectoryModel host home files relativePath e
  simp only [getContent,Program.run_bind,host.run_getSafePath,Program.run_call]
  generalize safePath host.cwd home relativePath = osPath at directory ⊢
  have lstatKept : (host.answer files (.lstat osPath)).1 = files := host.kept files _ rfl
  rw [lstatKept]
  cases looked : (host.answer files (.lstat osPath)).2 with
  | error why =>
    have absent (v : EntryName) : ¬ HasEntry host files osPath v := by
      rintro ⟨⟨info,found,-⟩,-,-⟩
      rw [looked] at found
      cases found
    simp [absent]
  | ok info =>
    by_cases dir : info.isDir = true
    · have entries : (∃ v, HasEntry host files osPath v ∧ entryModel host files osPath relativePath v = e) ↔
          (host.answer files (.openDir osPath)).2 = none ∧
            ∃ vs, (host.answer files (.readDir osPath)).2 = (vs,none) ∧
              e ∈ vs.map (entryModel host files osPath relativePath) := by
        constructor
        · rintro ⟨v,⟨-,opened,vs,listed,inside⟩,made⟩
          exact ⟨opened,vs,listed,List.mem_map.mpr ⟨v,inside,made⟩⟩
        · rintro ⟨opened,vs,listed,inside⟩
          obtain ⟨v,inside,made⟩ := List.mem_map.mp inside
          exact ⟨v,⟨⟨info,looked,dir⟩,opened,vs,listed,inside⟩,made⟩
      rw [entries]
      simp only [looked,Except.ok.injEq,exists_eq',true_and] at directory
      dsimp only
      rw [← directory,if_pos dir,Program.run_bind]
      rcases (getDirectoryModel home relativePath).run host.answer files with ⟨after,why | (err | entries)⟩ <;>
        simp [ContentModel.zero]
    · have absent (v : EntryName) : ¬ HasEntry host files osPath v := by
        rintro ⟨⟨other,found,isDir⟩,-,-⟩
        rw [looked] at found
        cases found
        exact dir isDir
      simp only [absent,false_and,exists_false,iff_false]
      rintro ⟨model,list,ended,content,-⟩
      rw [if_neg dir] at ended
      split_ifs at ended
      · obtain ⟨read,ends,answer⟩ := Program.ends_bind.mp (Program.ends_of_run ended)
        obtain rfl := Except.ok.inj answer
        exact not_entries (.inl ends) list content
      · obtain ⟨read,ends,answer⟩ := Program.ends_bind.mp (Program.ends_of_run ended)
        obtain rfl := Except.ok.inj answer
        exact not_entries (.inr ends) list content

/-- A request is refused for its path, or answered from the content. -/
theorem answered_eq {path : String} {body : List UInt8} (requests : Requests path body) :
    (contains (lookedUp path) ".." = true ∧ answered host home files body = .ok invalidPath) ∨
    (contains (lookedUp path) ".." = false ∧ ∃ contentType,
      answered host home files body =
        (((getContent home (lookedUp path) contentType).run host.answer files).2).map contentAnswer) := by
  obtain ⟨request,decoded,rfl⟩ := requests
  unfold answered contentAPIHandler
  rw [decoded]
  by_cases up : contains (lookedUp request.path) ".." = true
  · left
    refine ⟨up,?_⟩
    have refused : contains (if request.path = "" then "." else request.path) ".." = true := up
    simp only [refused,↓reduceIte,Program.run_pure]
  · right
    have allowed : contains (if request.path = "" then "." else request.path) ".." = false :=
      Bool.eq_false_iff.mpr up
    refine ⟨Bool.eq_false_iff.mpr up,if request.type ∈ allowedTypes then request.type else "file",?_⟩
    simp only [allowed,Bool.false_eq_true,↓reduceIte,Program.run_bind]
    change _ = ((getContent home (if request.path = "" then "." else request.path) _).run host.answer files).2.map _
    rcases (getContent home (if request.path = "" then "." else request.path)
      (if request.type ∈ allowedTypes then request.type else "file")).run host.answer files with
      ⟨after,why | (err | model)⟩ <;> rfl

/-- There is a request for each path. -/
theorem exists_requests (path : String) : ∃ body, Requests path body :=
  ⟨marshal (contentRequestBody.encode ⟨path,"file","",""⟩),⟨path,"file","",""⟩,
    decodeStream_marshal contentRequestBody_inverse.rereads _,rfl⟩

theorem accepted_iff (path : String) : Accepted host home files path ↔ contains (lookedUp path) ".." = false := by
  constructor
  · intro accepted
    obtain ⟨body,requests⟩ := exists_requests path
    rcases answered_eq requests with ⟨up,refused⟩ | ⟨allowed,-⟩
    · exact absurd rfl (accepted body invalidPath requests refused)
    · exact allowed
  · intro allowed body response requests answer
    rcases @answered_eq _ host home files _ _ requests with ⟨up,-⟩ | ⟨-,contentType,content⟩
    · rw [allowed] at up
      cases up
    · rw [content] at answer
      rcases ended : ((getContent home (lookedUp path) contentType).run host.answer files).2 with why | (err | model)
      · rw [ended] at answer
        cases answer
      · rw [ended] at answer
        cases answer
        simp [contentAnswer,errorResponse]
      · rw [ended] at answer
        cases answer
        simp [contentAnswer]

/-- The entries that are listed for a path are those of the directory it leads to. -/
theorem lists_iff {path : String} (allowed : contains (lookedUp path) ".." = false) (v : EntryName) (e : EntryModel) :
    Lists host home files path v e ↔
      HasEntry host files (safePath host.cwd home (lookedUp path)) v ∧
        e = entryModel host files (safePath host.cwd home (lookedUp path)) (lookedUp path) v := by
  have content (contentType : String) := run_getContent host home files (lookedUp path) contentType e
  constructor
  · rintro ⟨entry,model,body,answer,list,requests,ok,entries,inside⟩
    rcases answered_eq requests with ⟨up,-⟩ | ⟨-,contentType,got⟩
    · rw [allowed] at up
      cases up
    · have listed : ∃ model list, ((getContent home (lookedUp path) contentType).run host.answer files).2 = .ok (.ok model) ∧
          model.content = .entries list ∧ e ∈ list := by
        refine ⟨answer,list,?_,entries,inside⟩
        rw [ok] at got
        rcases ended : ((getContent home (lookedUp path) contentType).run host.answer files).2 with why | (err | model)
        · rw [ended] at got
          cases got
        · rw [ended] at got
          cases got
        · rw [ended] at got
          cases got
          rfl
      obtain ⟨w,⟨directory,opened,vs,read,-⟩,-⟩ := (content contentType).mp listed
      rw [read] at entry
      exact ⟨⟨directory,opened,vs,read,entry⟩,model⟩
  · rintro ⟨has,model⟩
    obtain ⟨vs,read,inside⟩ := has.listed
    obtain ⟨body,requests⟩ := exists_requests path
    refine ⟨by rw [read]; exact inside,model,body,?_⟩
    rcases @answered_eq _ host home files _ _ requests with ⟨up,-⟩ | ⟨-,contentType,got⟩
    · rw [allowed] at up
      cases up
    · obtain ⟨answer,list,ended,entries,inside⟩ := (content contentType).mpr ⟨v,has,model.symm⟩
      refine ⟨answer,list,requests,?_,entries,inside⟩
      rw [got,ended]
      rfl

/-! ## What is reached -/

theorem Spells.allowed {path : String} {place : Place} (spells : Spells host.cwd home path place) :
    contains (lookedUp path) ".." = false := by
  rw [lookedUp,if_neg spells.given]
  exact spells.plain

/-- What is listed for a path that names a place of the tree. -/
theorem lists_spelled {path : String} {place : Place} (resolves : Resolves host.cwd home)
    (spells : Spells host.cwd home path place) (v : EntryName) (e : EntryModel) :
    Lists host home files path v e ↔
      HasEntry host files (render true place) v ∧ e = entryModel host files (render true place) path v := by
  have same : lookedUp path = path := if_neg spells.given
  rw [lists_iff spells.allowed,same,spells.resolved host.rooted resolves]

/-- The path of an entry, which is empty for an entry that is not found. -/
theorem path_spelled {path : String} {place : Place} (spells : Spells host.cwd home path place) (v : EntryName) :
    (entryModel host files (render true place) path v).path = entryPath path v.name ∧
      (∃ info, (host.answer files (.lstat (render true (place ++ [v.name.toList])))).2 = .ok info) ∨
    (entryModel host files (render true place) path v).path = "" ∧
      ¬ ∃ info, (host.answer files (.lstat (render true (place ++ [v.name.toList])))).2 = .ok info := by
  obtain ⟨absolute,placed⟩ := spells.absolute host.rooted
  have there : join [render true place,v.name] = render true (place ++ [v.name.toList]) := by
    rw [v.join_eq absolute,placed]
  have made := @entryModel_path _ host files (render true place) path v
  rwa [there] at made

/-- By induction on the way from the start: in a plain tree each path names the place
    that it is listed for. -/
theorem reached_spells (resolves : Resolves host.cwd home) (plain : Plain host home files) {path : String} {place : Place}
    (reached : Reached host home files path place) :
    Spells host.cwd home path place ∧ InTree host home files place := by
  induction reached with
  | start => exact ⟨spells_dot host.cwd home,.root⟩
  | @entry path place v e reached lists ih =>
    obtain ⟨spells,inTree⟩ := ih
    obtain ⟨has,rfl⟩ := (lists_spelled resolves spells v e).mp lists
    refine ⟨?_,.entry inTree has⟩
    rcases @path_spelled _ host home files _ _ spells v with ⟨made,-⟩ | ⟨-,lost⟩
    · rw [made]
      exact spells_entry spells v (plain.named place v inTree has)
    · exact absurd (plain.found place v inTree has) lost

/-- Where everything that is listed can be opened, an entry of a place that is reached
    has a plain name and is found, and it is reached too. -/
theorem entry_plain (resolves : Resolves host.cwd home) (openable : Openable host home files) {path : String}
    {place : Place} (reached : Reached host home files path place) (spells : Spells host.cwd home path place)
    {v : EntryName} (has : HasEntry host files (render true place) v) :
    contains v.name ".." = false ∧
      (∃ info, (host.answer files (.lstat (render true (place ++ [v.name.toList])))).2 = .ok info) ∧
      Reached host home files (entryPath path v.name) (place ++ [v.name.toList]) := by
  have lists := (lists_spelled resolves spells v _).mpr ⟨has,rfl⟩
  obtain ⟨accepted,resolved⟩ := openable path place v _ reached lists
  rcases @path_spelled _ host home files _ _ spells v with ⟨made,found⟩ | ⟨made,-⟩
  · rw [made] at accepted
    refine ⟨?_,found,made ▸ .entry reached lists⟩
    by_contra up
    have given : entryPath path v.name ≠ "" := by
      unfold entryPath
      split_ifs
      · exact v.ne_empty
      · intro none
        have text := congrArg String.toList none
        simp at text
    have allowed := (accepted_iff _).mp accepted
    rw [lookedUp,if_neg given] at allowed
    have inside : contains (entryPath path v.name) ".." = true := by
      unfold entryPath
      split_ifs
      · simpa using up
      · exact contains_suffix path v.name (by simpa using up)
    rw [allowed] at inside
    cases inside
  · -- the empty path is resolved to the project itself, whose names are fewer
    have start : safePath host.cwd home "" = safePath host.cwd home "." := by
      have same : clean "" = clean "." := by decide
      simp only [safePath,same]
    rw [made,start,(spells_dot host.cwd home).resolved host.rooted resolves] at resolved
    have here := ((spells_dot host.cwd home).absolute host.rooted).2
    have valid : ∀ n ∈ place ++ [v.name.toList], Name n := by
      intro n inside
      rcases List.mem_append.mp inside with above | own
      · rw [← (spells.absolute host.rooted).2] at above
        exact names_name _ n above
      · exact List.mem_singleton.mp own ▸ v.single.1
    have longer := congrArg names resolved
    rw [here,names_render true valid,spells.placed] at longer
    have count := congrArg List.length longer
    simp only [List.length_append,List.length_singleton] at count
    omega

theorem plain_of_openable (resolves : Resolves host.cwd home) (openable : Openable host home files) :
    Plain host home files := by
  have reach (place : Place) (inTree : InTree host home files place) :
      ∃ path, Reached host home files path place ∧ Spells host.cwd home path place := by
    induction inTree with
    | root => exact ⟨".",.start,spells_dot host.cwd home⟩
    | @entry place v inTree has ih =>
      obtain ⟨path,reached,spells⟩ := ih
      obtain ⟨plain,-,next⟩ := entry_plain resolves openable reached spells has
      exact ⟨_,next,spells_entry spells v plain⟩
  constructor
  · intro place v inTree has
    obtain ⟨path,reached,spells⟩ := reach place inTree
    exact (entry_plain resolves openable reached spells has).1
  · intro place v inTree has
    obtain ⟨path,reached,spells⟩ := reach place inTree
    exact (entry_plain resolves openable reached spells has).2.1

theorem openable_of_plain (resolves : Resolves host.cwd home) (plain : Plain host home files) :
    Openable host home files := by
  intro path place v e reached lists
  obtain ⟨spells,-⟩ := reached_spells resolves plain (.entry reached lists)
  exact ⟨(accepted_iff _).mpr spells.allowed,spells.resolved host.rooted resolves⟩

/-- Where `HomeDir` does not begin its own absolute path, nothing is listed. -/
theorem stray_lists (stray : ¬ Resolves host.cwd home) {path : String} {place : Place}
    (reached : Reached host home files path place) (v : EntryName) (e : EntryModel) :
    ¬ Lists host home files path v e := by
  induction reached generalizing v e with
  | start =>
    intro lists
    obtain ⟨⟨⟨info,found,-⟩,-,-⟩,-⟩ := (lists_iff (by decide) v e).mp lists
    obtain ⟨why,none⟩ := host.lstat_empty files
    rw [show lookedUp "." = "." from rfl,safePath_dot host.rooted stray,none] at found
    cases found
  | entry reached lists ih => exact absurd lists (ih _ _)

theorem opens_dot_iff : Opens host home files "." (root host.cwd home) ↔ Resolves host.cwd home := by
  constructor
  · intro opens
    by_contra stray
    have resolved := opens.resolved
    rw [safePath_dot host.rooted stray] at resolved
    have text := congrArg String.toList resolved
    simp [render] at text
  · intro resolves
    exact ⟨(accepted_iff _).mpr (by decide),(spells_dot host.cwd home).resolved host.rooted resolves⟩

end

/-- Every entry that is listed can be opened with its path if and only if no name in the
    tree has two points in a row and each entry is found, or nothing is listed; the start
    can be opened where `HomeDir` begins its own absolute path. -/
theorem openable_iff {Files : Type} (host : Host Files) (flag : String) (files : Files) :
    (Openable host (homeDir host.cwd flag) files ↔
      (Resolves host.cwd (homeDir host.cwd flag) → Plain host (homeDir host.cwd flag) files)) ∧
    (Opens host (homeDir host.cwd flag) files "." (root host.cwd (homeDir host.cwd flag)) ∧
        Openable host (homeDir host.cwd flag) files ↔
      Resolves host.cwd (homeDir host.cwd flag) ∧ Plain host (homeDir host.cwd flag) files) := by
  generalize homeDir host.cwd flag = home
  refine ⟨⟨?_,?_⟩,?_⟩
  · intro openable resolves
    exact plain_of_openable resolves openable
  · intro plain path place v e reached lists
    by_cases resolves : Resolves host.cwd home
    · exact openable_of_plain resolves (plain resolves) path place v e reached lists
    · exact absurd lists (stray_lists resolves reached v e)
  · rw [opens_dot_iff]
    constructor
    · rintro ⟨resolves,openable⟩
      exact ⟨resolves,plain_of_openable resolves openable⟩
    · rintro ⟨resolves,plain⟩
      exact ⟨resolves,openable_of_plain resolves plain⟩

/-! ## A name with two points -/

def versions : EntryName := ⟨"v1..v2.diff",by decide⟩

/-- The answers of a system with one file in the directory of the project. -/
def versionsAnswer (_ : Unit) : (c : Call) → Unit × Reply c
  | .getwd => ((),.ok "/home/u")
  | .lstat path | .stat path => ((),
    if path = "" then .error ⟨true,"no such file"⟩ else .ok ⟨base path,path = "/home/u",0,"2025-01-01T00:00:00Z"⟩)
  | .readFile _ => ((),.ok [])
  | .readDir _ => ((),([versions],none))
  | .openDir _ => ((),none)
  | .writeFile _ _ | .openFile _ | .mkdirAll _ | .rename _ _ | .remove _ => ((),some ⟨false,"permission denied"⟩)

def versionsHost : Host Unit where
  answer := versionsAnswer
  kept _ _ _ := rfl
  cwd := "/home/u"
  rooted := absolute_user.rooted
  getwd_eq _ := rfl
  lstat_empty _ := ⟨_,rfl⟩

/-- A file is listed, and refused when it is to be opened. -/
theorem versions_refused : ¬ Openable versionsHost (homeDir "/home/u" ".") () := by
  intro openable
  have home : homeDir "/home/u" "." = "/home/u" := rfl
  have resolves : Resolves versionsHost.cwd "/home/u" := by decide
  have spells := spells_dot versionsHost.cwd "/home/u"
  have place : render true (root versionsHost.cwd "/home/u") = "/home/u" := by decide
  have has : HasEntry versionsHost () (render true (root versionsHost.cwd "/home/u")) versions := by
    rw [place]
    exact ⟨⟨_,rfl,rfl⟩,rfl,[versions],rfl,by simp⟩
  rw [home] at openable
  obtain ⟨plain,-,-⟩ := entry_plain resolves openable .start spells has
  revert plain
  decide

end Zasper.ListedPaths
