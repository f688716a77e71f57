import Zasper.OperatingSystem

/-!
# Kernel resources

How the server finds the directory of a kernel on the Jupyter path, and serves a
file from it. An unknown kernel has the empty path for its directory, so that its
files are looked for in the working directory.
-/
namespace Zasper.KernelResources
open Zasper.Paths Zasper.Programs Zasper.OperatingSystem
set_option linter.unusedSimpArgs false

def getKernelDirs (jupyterPath : List String) : List String := jupyterPath.map (fun v => join [v,"kernels"])

/-- A directory with a `kernel.json` in it. -/
def isKernelDir (path : String) : Os Bool := .call (.stat path) (fun
  | .error _ => pure false
  | .ok info =>
    if !info.isDir then pure false
    else .call (.stat (join [path,"kernel.json"])) (fun found => pure found.isOk))

/-- The first of the files that is the directory of the kernel. -/
def findInFiles (kernelName kernelDir : String) : List EntryName → Os (Option String)
  | [] => pure none
  | file :: files => do
    let path := join [kernelDir,file.name]
    if file.name = kernelName then
      if ← isKernelDir path then pure (some path) else findInFiles kernelName kernelDir files
    else findInFiles kernelName kernelDir files

/-- Errors of opening and listing a directory are not looked at. -/
def findInDirs (kernelName : String) : List String → Os String
  | [] => pure ""
  | kernelDir :: dirs => .call (.openDir kernelDir) (fun opened => do
    let (files,_) ← readOpened kernelDir opened
    match ← findInFiles kernelName kernelDir files with
    | some path => pure path
    | none => findInDirs kernelName dirs)

def findSpecDirectory (jupyterPath : List String) (kernelName : String) : Os String :=
  findInDirs kernelName (getKernelDirs jupyterPath)

def getResourceFile (jupyterPath : List String) (kernelName resourcePath : String) : Os String := do
  let resourceDir ← findSpecDirectory jupyterPath kernelName
  pure (join [resourceDir,resourcePath])

inductive Resource where
  | notFound
  | file (path contentType : String) (data : List UInt8)
deriving DecidableEq

def contentTypeOf (ext : List Char) : String :=
  if ext = "png".toList then "image/png"
  else if ext = "svg".toList then "image/svg+xml"
  else "application/octet-stream"

/-- The point of the extension is cut off, also where there is no extension. -/
def serveKernelResource (jupyterPath : List String) (kernelName resourcePath : String) : Os Resource := do
  let fullPath ← getResourceFile jupyterPath kernelName resourcePath
  .call (.readFile fullPath) (fun
    | .error _ => pure .notFound
    | .ok data =>
      match (ext resourcePath).toList with
      | [] => .stop .outOfRange
      | _ :: ext => pure (.file fullPath (contentTypeOf ext) data))

/-! ## Serving changes nothing -/

section
variable {α β : Type}

/-- The program makes no call that changes files. -/
def Reads (p : Os α) : Prop := p.Calls (fun c => c.reads = true)

theorem reads_bind {p : Os α} {f : α → Os β} (first : Reads p) (later : ∀ a, Reads (f a)) : Reads (p >>= f) :=
  Program.calls_bind.mpr ⟨first,fun a _ => later a⟩

theorem reads_call {c : Call} {next : Reply c → Os α} (here : c.reads = true) (later : ∀ reply, Reads (next reply)) :
    Reads (.call c next) := ⟨here,later⟩

end

theorem reads_isKernelDir (path : String) : Reads (isKernelDir path) := by
  refine reads_call rfl ?_
  intro reply
  cases reply with
  | error e => trivial
  | ok info =>
    dsimp only
    split_ifs
    · trivial
    · exact reads_call rfl (fun reply => trivial)

theorem reads_findInFiles (kernelName kernelDir : String) (files : List EntryName) :
    Reads (findInFiles kernelName kernelDir files) := by
  induction files with
  | nil => trivial
  | cons file files ih =>
    rw [findInFiles]
    split_ifs
    · refine reads_bind (reads_isKernelDir _) ?_
      intro found
      cases found with
      | true => trivial
      | false => exact ih
    · exact ih

theorem reads_readOpened (path : String) (opened : Option OsError) : Reads (readOpened path opened) := by
  cases opened with
  | none => exact reads_call rfl (fun reply => trivial)
  | some e => trivial

theorem reads_findInDirs (kernelName : String) (dirs : List String) : Reads (findInDirs kernelName dirs) := by
  induction dirs with
  | nil => trivial
  | cons kernelDir dirs ih =>
    refine reads_call rfl (fun opened => reads_bind (reads_readOpened _ _) (fun listed => ?_))
    refine reads_bind (reads_findInFiles _ _ _) ?_
    intro found
    cases found with
    | some path => trivial
    | none => exact ih

theorem reads_getResourceFile (jupyterPath : List String) (kernelName resourcePath : String) :
    Reads (getResourceFile jupyterPath kernelName resourcePath) :=
  reads_bind (reads_findInDirs _ _) (fun _ => trivial)

theorem reads_serveKernelResource (jupyterPath : List String) (kernelName resourcePath : String) :
    Reads (serveKernelResource jupyterPath kernelName resourcePath) := by
  refine reads_bind (reads_getResourceFile _ _ _) ?_
  intro fullPath
  refine reads_call rfl ?_
  intro reply
  cases reply with
  | error e => trivial
  | ok data =>
    dsimp only
    split <;> trivial

/-- What is served is the file that was found, where it can be read and has an
    extension. -/
theorem served_file {Files : Type} (fileSystem : FileSystem Files) {files : Files} {jupyterPath : List String}
    {kernelName resourcePath path contentType : String} {data : List UInt8}
    (served : ((serveKernelResource jupyterPath kernelName resourcePath).run fileSystem.answer files).2 =
      .ok (.file path contentType data)) :
    ((getResourceFile jupyterPath kernelName resourcePath).run fileSystem.answer files).2 = .ok path ∧
      (fileSystem.answer files (.readFile path)).2 = .ok data ∧ ext resourcePath ≠ "" := by
  have same := Program.run_world fileSystem.kept (reads_getResourceFile jupyterPath kernelName resourcePath) files
  rw [serveKernelResource,Program.run_bind] at served
  cases found : (getResourceFile jupyterPath kernelName resourcePath).run fileSystem.answer files with
  | mk after result =>
    rw [found] at served same
    obtain rfl : after = files := same
    cases result with
    | error why => cases served
    | ok fullPath =>
      simp only [Program.run_call] at served
      cases read : (fileSystem.answer after (.readFile fullPath)).2 with
      | error e =>
        rw [read] at served
        cases served
      | ok content =>
        rw [read] at served
        cases ending : (ext resourcePath).toList with
        | nil =>
          simp only [ending] at served
          cases served
        | cons point rest =>
          simp only [ending,Program.run_pure,Except.ok.injEq,Resource.file.injEq] at served
          obtain ⟨rfl,_,rfl⟩ := served
          exact ⟨rfl,read,fun none => by simp [none] at ending⟩

end Zasper.KernelResources
