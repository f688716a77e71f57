import Zasper.Kernelspecs

/-!
# Served resources

Which files the server hands out as resources of kernels. The path of a resource is made
from the directory that was found for the kernel, which is empty where none was, and the
name of the resource is taken to have an extension: `onlyResources_iff` says for which
requests nothing but resources of kernels is served.
-/
namespace Zasper.ServedResources
open Zasper.Paths Zasper.Programs Zasper.OperatingSystem Zasper.KernelResources Zasper.Kernelspecs
set_option linter.unusedSimpArgs false

/-- A name without a slash, as the route takes it. -/
structure ResourceName where
  name : String
  noSlash : '/' ∉ name.toList

/-- Files of which no directory can be read as a file. -/
structure Disk (Files : Type) extends FileSystem Files where
  stat_unreadable : ∀ files path info, (answer files (.stat path)).2 = .ok info → info.isDir = true →
    ∃ e, (answer files (.readFile path)).2 = .error e
  listed_unreadable : ∀ files path, (answer files (.readDir path)).2.1 ≠ [] → ∃ e, (answer files (.readFile path)).2 = .error e

section
variable {Files : Type} (disk : Disk Files) (files : Files) (jupyterPath : List String) (kernelName : String)
  (resource : ResourceName)

def served : Except Stop Resource :=
  ((serveKernelResource jupyterPath kernelName resource.name).run disk.answer files).2

/-- The path is that of an entry of a directory with the kernel, on the Jupyter path. -/
def OfKernel (path : String) : Prop :=
  ∃ kernelDir ∈ dirsWith disk.toFileSystem files jupyterPath kernelName, ∃ entry : EntryName,
    path = join [join [kernelDir,kernelName],entry.name]

/-- The request is answered, and with a file only where the file is one of the kernel. -/
def OnlyResources : Prop :=
  ∃ answer, served disk files jupyterPath kernelName resource = .ok answer ∧
    ∀ path contentType data, answer = .file path contentType data → OfKernel disk files jupyterPath kernelName path

/-- The path that is read. -/
def resourcePath : String :=
  join [((dirsWith disk.toFileSystem files jupyterPath kernelName).head?.map (fun dir => join [dir,kernelName])).getD "",
    resource.name]

/-- What can be read is a resource of a kernel that is known, and has an extension. -/
def Resources : Prop := ∀ data,
  (disk.answer files (.readFile (resourcePath disk files jupyterPath kernelName resource))).2 = .ok data →
    dirsWith disk.toFileSystem files jupyterPath kernelName ≠ [] ∧ ext resource.name ≠ ""

end

/-! ## The answer -/

section
variable {Files : Type} {disk : Disk Files} {files : Files} {jupyterPath : List String} {kernelName : String}
  {resource : ResourceName}

theorem served_eq : served disk files jupyterPath kernelName resource =
    match (disk.answer files (.readFile (resourcePath disk files jupyterPath kernelName resource))).2 with
    | .error _ => .ok .notFound
    | .ok data =>
      match (ext resource.name).toList with
      | [] => .error .outOfRange
      | _ :: ext => .ok (.file (resourcePath disk files jupyterPath kernelName resource) (contentTypeOf ext) data) := by
  have finds : (getResourceFile jupyterPath kernelName resource.name).run disk.answer files =
      (files,.ok (resourcePath disk files jupyterPath kernelName resource)) :=
    finds_bind (finds_findInDirs kernelName _) (finds_pure _)
  rw [served,serveKernelResource,Program.run_bind,finds]
  simp only [Program.run_call]
  cases (disk.answer files (.readFile (resourcePath disk files jupyterPath kernelName resource))).2 with
  | error e => rfl
  | ok data => cases (ext resource.name).toList <;> rfl

/-! ## The directory of a kernel -/

/-- A directory with a kernel, and the kernel's name in it. -/
theorem kernel_entry {kernelDir : String} (member : kernelDir ∈ dirsWith disk.toFileSystem files jupyterPath kernelName) :
    ∃ v ∈ entriesOf disk.toFileSystem files kernelDir, v.name = kernelName ∧
      holdsKernel disk.toFileSystem files (join [kernelDir,kernelName]) = true := by
  obtain ⟨-,has⟩ := List.mem_filter.mp member
  rw [hasKernel,Bool.and_eq_true,List.any_eq_true] at has
  obtain ⟨⟨v,inside,same⟩,holds⟩ := has
  exact ⟨v,inside,of_decide_eq_true same,holds⟩

/-- What the point or two points, or nothing, lead to from the directory of an entry. -/
theorem join_dots {path : String} (given : path ≠ "") (shortest : clean path = path) (v : EntryName) :
    join [join [path,v.name],""] = join [path,v.name] ∧ join [join [path,v.name],"."] = join [path,v.name] ∧
      join [join [path,v.name],".."] = path := by
  have inside : v.name ∈ [path,v.name] := by simp
  obtain ⟨entryGiven,entryShortest⟩ := clean_join inside v.ne_empty
  obtain ⟨resolved,rendered⟩ := rendered_of_clean shortest
  obtain ⟨-,entryRendered⟩ := rendered_of_clean entryShortest
  have entryAbs : isAbs (join [path,v.name]) = isAbs path := by simp [isAbs_join,startsAbs,given]
  have entryNames : names (join [path,v.name]) = names path ++ [v.name.toList] := by
    have noUp : dotdot ∉ [v.name.toList] := by simpa using Ne.symm v.single.2
    rw [names_join,← isAbs_join,entryAbs]
    simp only [List.flatMap_cons,List.flatMap_nil,List.append_nil,v.names_eq]
    rw [resolve_append _ _ noUp,resolved]
  have nothing : names "" = [] ∧ names "." = [] ∧ names ".." = [dotdot] := by decide
  refine ⟨?_,?_,?_⟩
  · rw [join_two entryGiven,nothing.1,List.append_nil,(rendered_of_clean entryShortest).1,entryRendered]
  · rw [join_two entryGiven,nothing.2.1,List.append_nil,(rendered_of_clean entryShortest).1,entryRendered]
  · have popped : resolve (isAbs path) (names path ++ [v.name.toList] ++ [dotdot]) = resolve (isAbs path) (names path) := by
      simp [resolve,List.foldl_append,pushName,popName,v.single.2]
    rw [join_two entryGiven,nothing.2.2,entryAbs,entryNames,popped,resolved,rendered]

/-- A name without a slash is that of an entry, or nothing, or one or two points. -/
theorem ResourceName.cases (resource : ResourceName) :
    (∃ entry : EntryName, resource.name = entry.name) ∨ resource.name = "" ∨ resource.name = "." ∨ resource.name = ".." := by
  obtain ⟨name,noSlash⟩ := resource
  by_cases single : (Name name.toList ∧ name.toList ≠ dotdot)
  · exact .inl ⟨⟨name,single⟩,rfl⟩
  · right
    have text (s : String) (same : name.toList = s.toList) : name = s := String.toList_inj.mp same
    by_cases empty : name.toList = []
    · exact .inl (text "" empty)
    · by_cases one : name.toList = dot
      · exact .inr (.inl (text "." one))
      · by_cases two : name.toList = dotdot
        · exact .inr (.inr (text ".." two))
        · exact absurd ⟨⟨empty,one,noSlash⟩,two⟩ single

/-- What can be read below the directory of a kernel is an entry of it. -/
theorem entry_of_read {kernelDir : String} (member : kernelDir ∈ dirsWith disk.toFileSystem files jupyterPath kernelName)
    {data : List UInt8}
    (read : (disk.answer files (.readFile (join [join [kernelDir,kernelName],resource.name]))).2 = .ok data) :
    ∃ entry : EntryName, resource.name = entry.name := by
  obtain ⟨v,listed,rfl,holds⟩ := kernel_entry member
  obtain ⟨base,-,dir⟩ := List.mem_map.mp (List.mem_of_mem_filter member)
  have kernels : "kernels" ∈ [base,"kernels"] := by simp
  obtain ⟨given,shortest⟩ := clean_join kernels (by decide)
  rw [dir] at given shortest
  obtain ⟨empty,one,two⟩ := join_dots given shortest v
  have unreadable : ∀ path, join [join [kernelDir,v.name],resource.name] = path →
      (∃ e, (disk.answer files (.readFile path)).2 = .error e) → False := by
    rintro path rfl ⟨e,failed⟩
    rw [read] at failed
    cases failed
  have kernelUnreadable : ∃ e, (disk.answer files (.readFile (join [kernelDir,v.name]))).2 = .error e := by
    unfold holdsKernel at holds
    split at holds
    · cases holds
    · next info found =>
      rw [Bool.and_eq_true] at holds
      exact disk.stat_unreadable files _ info found holds.1
  have dirUnreadable : ∃ e, (disk.answer files (.readFile kernelDir)).2 = .error e := by
    unfold entriesOf at listed
    split at listed
    · exact absurd listed List.not_mem_nil
    · exact disk.listed_unreadable files kernelDir (List.ne_nil_of_mem listed)
  rcases resource.cases with entry | nameEmpty | nameOne | nameTwo
  · exact entry
  · exact (unreadable _ (by rw [nameEmpty,empty]) kernelUnreadable).elim
  · exact (unreadable _ (by rw [nameOne,one]) kernelUnreadable).elim
  · exact (unreadable _ (by rw [nameTwo,two]) dirUnreadable).elim

end

/-- Nothing but resources of kernels is served for a request if and only if what is read
    for it is a resource of a kernel on the Jupyter path, and has an extension. -/
theorem onlyResources_iff {Files : Type} (disk : Disk Files) (files : Files) (jupyterPath : List String)
    (kernelName : String) (resource : ResourceName) :
    OnlyResources disk files jupyterPath kernelName resource ↔ Resources disk files jupyterPath kernelName resource := by
  unfold OnlyResources Resources
  rw [served_eq]
  cases read : (disk.answer files (.readFile (resourcePath disk files jupyterPath kernelName resource))).2 with
  | error e => simp
  | ok data =>
    simp only [Except.ok.injEq,forall_eq']
    cases ending : (ext resource.name).toList with
    | nil =>
      have none : ext resource.name = "" := String.toList_inj.mp ending
      simp [none]
    | cons point rest =>
      have some : ext resource.name ≠ "" := by
        intro none
        rw [none] at ending
        cases ending
      simp only [Except.ok.injEq,exists_eq_left',Resource.file.injEq,ne_eq,some,not_false_eq_true,and_true]
      constructor
      · intro ofKernel
        obtain ⟨kernelDir,member,-⟩ := ofKernel _ _ _ ⟨rfl,rfl,rfl⟩
        exact List.ne_nil_of_mem member
      · rintro known path contentType bytes ⟨rfl,-,-⟩
        obtain ⟨kernelDir,dirs,first⟩ := List.exists_cons_of_ne_nil known
        have member : kernelDir ∈ dirsWith disk.toFileSystem files jupyterPath kernelName := by rw [first]; exact List.mem_cons_self
        have path : resourcePath disk files jupyterPath kernelName resource =
            join [join [kernelDir,kernelName],resource.name] := by
          rw [resourcePath,first]
          rfl
        rw [path] at read ⊢
        obtain ⟨entry,same⟩ := entry_of_read member read
        exact ⟨kernelDir,member,entry,by rw [same]⟩

/-- A machine without kernels, with a file in the working directory of the server. -/
def workspace : Disk Unit where
  answer _ c := ((),match c with
    | .getwd => .ok "/home/u"
    | .lstat _ | .stat _ => .error ⟨true,""⟩
    | .readFile path => if path = "notes.txt" then .ok [0x68,0x69] else .error ⟨true,""⟩
    | .readDir _ => ([],some ⟨true,""⟩)
    | .writeFile _ _ | .openFile _ | .openDir _ | .mkdirAll _ | .rename _ _ | .remove _ => some ⟨true,""⟩)
  kept _ _ _ := rfl
  stat_unreadable _ _ _ found := by cases found
  listed_unreadable _ _ listed := absurd rfl listed

/-- A file of the working directory is served as the resource of an unknown kernel. -/
theorem notes_served : ¬ OnlyResources workspace () ["/usr/share/jupyter"] "python3" ⟨"notes.txt",by decide⟩ := by
  rintro ⟨answer,got,ofKernel⟩
  have file : served workspace () ["/usr/share/jupyter"] "python3" ⟨"notes.txt",by decide⟩ =
      .ok (.file "notes.txt" "application/octet-stream" [0x68,0x69]) := by rfl
  obtain rfl := Except.ok.inj (got.symm.trans file)
  obtain ⟨kernelDir,member,-⟩ := ofKernel _ _ _ rfl
  have none : dirsWith workspace.toFileSystem () ["/usr/share/jupyter"] "python3" = [] := by decide
  rw [none] at member
  exact absurd member List.not_mem_nil

end Zasper.ServedResources
