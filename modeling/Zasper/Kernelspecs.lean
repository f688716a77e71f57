import Zasper.KernelResources
import Zasper.Structs

/-!
# Kernel specs

The specs of the kernels on the Jupyter path, all of them and that of a single kernel.
Both look through the same directories, but the last directory with a kernel counts for
the one and the first for the other; and a kernel that is not found has the empty path,
so that its spec is read from the working directory (`sameSpec_iff`).
-/
namespace Zasper.Kernelspecs
open Zasper.Maps Zasper.JsonValues Zasper.JsonText Zasper.Structs Zasper.Paths Zasper.Programs Zasper.OperatingSystem
open Zasper.KernelResources
set_option linter.unusedSimpArgs false

/-! ## Specs -/

structure KernelSpecJsonData where
  argv : Option (List String)
  displayName : String
  language : String
  metadata : Value
  name : String
  mimetype : String
  env : String
  resourceDir : String
  interruptMode : String
deriving DecidableEq

structure KspecData where
  resourceDir : String
  spec : KernelSpecJsonData
deriving DecidableEq

def kernelSpecJsonData : Codec KernelSpecJsonData := struct ⟨none,"","",.null,"","","","",""⟩
  [ field "argv" (list text) (·.argv) (fun s v => { s with argv := v })
  , field "display_name" text (·.displayName) (fun s v => { s with displayName := v })
  , field "language" text (·.language) (fun s v => { s with language := v })
  , field "metadata" any (·.metadata) (fun s v => { s with metadata := v })
  , field "name" text (·.name) (fun s v => { s with name := v })
  , field "mimetype" text (·.mimetype) (fun s v => { s with mimetype := v })
  , field "env" text (·.env) (fun s v => { s with env := v })
  , field "resource_dir" text (·.resourceDir) (fun s v => { s with resourceDir := v })
  , field "interrupt_mode" text (·.interruptMode) (fun s v => { s with interruptMode := v }) ]

/-- The spec in a file; the error of the decoding is not looked at. -/
def specIn (resourceDir : String) (byteValue : List UInt8) : KernelSpecJsonData :=
  { (kernelSpecJsonData.unmarshal byteValue kernelSpecJsonData.zero).1 with resourceDir := resourceDir }

/-- A file that cannot be read counts as empty. -/
def fromResourceDir (resourceDir : String) : Os KernelSpecJsonData :=
  .call (.readFile (join [resourceDir,"kernel.json"])) (fun
    | .ok byteValue => pure (specIn resourceDir byteValue)
    | .error _ => pure (specIn resourceDir []))

/-- The directories of kernels among the files. -/
def kernelsAmong (kernelDir : String) : List EntryName → Dict String String → Os (Dict String String)
  | [], kernels => pure kernels
  | v :: files, kernels => do
    let path := join [kernelDir,v.name]
    if ← isKernelDir path then kernelsAmong kernelDir files (kernels.insert v.name path)
    else kernelsAmong kernelDir files kernels

/-- A directory that cannot be opened has no kernels; the error of listing it is only
    logged. -/
def listKernelsIn (kernelDir : String) : Os (Dict String String) := .call (.openDir kernelDir) (fun
  | some _ => pure .empty
  | none => .call (.readDir kernelDir) (fun listed => kernelsAmong kernelDir listed.1 .empty))

/-- The kernels of one directory over those of the directories before it. -/
def addKernels (kernelsDict kernels : Dict String String) : Dict String String :=
  kernels.entries.foldl (fun dict e => dict.insert e.1 e.2) kernelsDict

def findIn : List String → Dict String String → Os (Dict String String)
  | [], kernelsDict => pure kernelsDict
  | kernelDir :: kernelDirs, kernelsDict => do
    let kernels ← listKernelsIn kernelDir
    findIn kernelDirs (addKernels kernelsDict kernels)

def findKernelSpecs (jupyterPath : List String) : Os (Dict String String) := findIn (getKernelDirs jupyterPath) .empty

def readSpecs : List (String × String) → Dict String KspecData → Os (Dict String KspecData)
  | [], res => pure res
  | (kname,resourceDir) :: specs, res => do
    let spec ← fromResourceDir resourceDir
    readSpecs specs (res.insert kname ⟨resourceDir,spec⟩)

def getAllSpecs (jupyterPath : List String) : Os (Dict String KspecData) := do
  let specs ← findKernelSpecs jupyterPath
  readSpecs specs.entries .empty

def getKernelSpecByName (_kernelName resourceDir : String) : Os KernelSpecJsonData := fromResourceDir resourceDir

def getKernelSpec (jupyterPath : List String) (kernelName : String) : Os KernelSpecJsonData := do
  let resourceDir ← findSpecDirectory jupyterPath kernelName
  getKernelSpecByName kernelName resourceDir

/-! ## What the files say -/

section
variable {Files : Type} (fileSystem : FileSystem Files) (files : Files)

/-- The path is a directory with a `kernel.json` in it. -/
def holdsKernel (path : String) : Bool :=
  match (fileSystem.answer files (.stat path)).2 with
  | .error _ => false
  | .ok info => info.isDir && (fileSystem.answer files (.stat (join [path,"kernel.json"]))).2.isOk

/-- The entries of a directory, as far as it can be listed. -/
def entriesOf (kernelDir : String) : List EntryName :=
  match (fileSystem.answer files (.openDir kernelDir)).2 with
  | some _ => []
  | none => (fileSystem.answer files (.readDir kernelDir)).2.1

/-- The directory has the kernel. -/
def hasKernel (kernelName kernelDir : String) : Bool :=
  (entriesOf fileSystem files kernelDir).any (fun v => v.name = kernelName) &&
    holdsKernel fileSystem files (join [kernelDir,kernelName])

/-- The directories with the kernel, in the order of the Jupyter path. -/
def dirsWith (jupyterPath : List String) (kernelName : String) : List String :=
  (getKernelDirs jupyterPath).filter (hasKernel fileSystem files kernelName)

/-- The spec that the files have for a directory. -/
def specAt (resourceDir : String) : KernelSpecJsonData :=
  match (fileSystem.answer files (.readFile (join [resourceDir,"kernel.json"]))).2 with
  | .ok byteValue => specIn resourceDir byteValue
  | .error _ => specIn resourceDir []

/-- The program finds `a` in the files, and leaves them as they are. -/
def Finds {α : Type} (p : Os α) (a : α) : Prop := p.run fileSystem.answer files = (files,.ok a)

variable {fileSystem files}
variable {α β : Type}

theorem finds_pure (a : α) : Finds fileSystem files (pure a) a := rfl

theorem finds_bind {p : Os α} {f : α → Os β} {a : α} {b : β} (first : Finds fileSystem files p a)
    (second : Finds fileSystem files (f a) b) : Finds fileSystem files (p >>= f) b := by
  rw [Finds,Program.run_bind,first]
  exact second

theorem finds_call {c : Call} {next : Reply c → Os α} {a : α} (looks : c.reads = true)
    (later : Finds fileSystem files (next (fileSystem.answer files c).2) a) :
    Finds fileSystem files (.call c next) a := by
  rw [Finds,Program.run_call,fileSystem.kept files c looks]
  exact later

theorem finds_isKernelDir (path : String) :
    Finds fileSystem files (isKernelDir path) (holdsKernel fileSystem files path) := by
  refine finds_call rfl ?_
  unfold holdsKernel
  cases stat : (fileSystem.answer files (.stat path)).2 with
  | error e => exact finds_pure _
  | ok info =>
    cases dir : info.isDir with
    | false => simpa [dir] using finds_pure false
    | true =>
      simp only [dir,Bool.not_true,Bool.false_eq_true,↓reduceIte,Bool.true_and]
      exact @finds_call Files fileSystem files Bool (.stat (join [path,"kernel.json"])) _ _ rfl (finds_pure _)

/-! ## The first directory -/

theorem finds_findInFiles (kernelName kernelDir : String) (entries : List EntryName) :
    Finds fileSystem files (findInFiles kernelName kernelDir entries)
      (if (entries.any (fun v => v.name = kernelName) && holdsKernel fileSystem files (join [kernelDir,kernelName])) then
        some (join [kernelDir,kernelName]) else none) := by
  induction entries with
  | nil => exact finds_pure _
  | cons v entries ih =>
    rw [findInFiles]
    by_cases same : v.name = kernelName
    · rw [if_pos same,same]
      refine finds_bind (finds_isKernelDir _) ?_
      cases holds : holdsKernel fileSystem files (join [kernelDir,kernelName]) with
      | true => simpa [same] using finds_pure _
      | false => simpa [holds] using ih
    · rw [if_neg same]
      simpa [same] using ih

theorem finds_readOpened (kernelDir : String) : ∃ e, Finds fileSystem files
    (readOpened kernelDir (fileSystem.answer files (.openDir kernelDir)).2) (entriesOf fileSystem files kernelDir,e) := by
  unfold entriesOf
  cases (fileSystem.answer files (.openDir kernelDir)).2 with
  | some e => exact ⟨_,finds_pure _⟩
  | none => exact ⟨_,finds_call (c := .readDir kernelDir) rfl (finds_pure _)⟩

/-- A single kernel is looked for in the first directory that has it. -/
theorem finds_findInDirs (kernelName : String) (dirs : List String) :
    Finds fileSystem files (findInDirs kernelName dirs)
      (((dirs.filter (hasKernel fileSystem files kernelName)).head?.map (fun dir => join [dir,kernelName])).getD "") := by
  induction dirs with
  | nil => exact finds_pure _
  | cons dir dirs ih =>
    obtain ⟨e,listed⟩ := @finds_readOpened Files fileSystem files dir
    refine finds_call (c := .openDir dir) rfl (finds_bind listed (finds_bind (finds_findInFiles ..) ?_))
    cases has : hasKernel fileSystem files kernelName dir with
    | true =>
      rw [hasKernel] at has
      rw [has,List.filter_cons_of_pos (by rwa [hasKernel])]
      exact finds_pure _
    | false =>
      rw [hasKernel] at has
      rw [has,List.filter_cons_of_neg (by rw [hasKernel,has]; decide)]
      exact ih

/-! ## The last directory -/

theorem finds_kernelsAmong (kernelDir : String) (entries : List EntryName) (kernels : Dict String String) :
    ∃ found, Finds fileSystem files (kernelsAmong kernelDir entries kernels) found ∧ ∀ kernelName,
      found.get? kernelName =
        if (entries.any (fun v => v.name = kernelName) && holdsKernel fileSystem files (join [kernelDir,kernelName])) then
          some (join [kernelDir,kernelName]) else kernels.get? kernelName := by
  induction entries generalizing kernels with
  | nil => exact ⟨kernels,finds_pure _,fun _ => rfl⟩
  | cons v entries ih =>
    cases holds : holdsKernel fileSystem files (join [kernelDir,v.name]) with
    | true =>
      obtain ⟨found,finds,gets⟩ := ih (kernels.insert v.name (join [kernelDir,v.name]))
      refine ⟨found,finds_bind (finds_isKernelDir _) (by rw [holds]; exact finds),?_⟩
      intro kernelName
      rw [gets]
      by_cases same : v.name = kernelName
      · subst same
        simp [holds]
      · simp [same,Dict.get?_insert_other _ (Ne.symm same)]
    | false =>
      obtain ⟨found,finds,gets⟩ := ih kernels
      refine ⟨found,finds_bind (finds_isKernelDir _) (by rw [holds]; exact finds),?_⟩
      intro kernelName
      rw [gets]
      by_cases same : v.name = kernelName
      · subst same
        simp [holds]
      · simp [same]

theorem entriesOf_closed {kernelDir : String} {e : OsError}
    (opened : (fileSystem.answer files (.openDir kernelDir)).2 = some e) : entriesOf fileSystem files kernelDir = [] := by
  simp only [entriesOf,opened]

theorem entriesOf_opened {kernelDir : String} (opened : (fileSystem.answer files (.openDir kernelDir)).2 = none) :
    entriesOf fileSystem files kernelDir = (fileSystem.answer files (.readDir kernelDir)).2.1 := by
  simp only [entriesOf,opened]

theorem finds_listKernelsIn (kernelDir : String) :
    ∃ found, Finds fileSystem files (listKernelsIn kernelDir) found ∧ ∀ kernelName,
      found.get? kernelName =
        if hasKernel fileSystem files kernelName kernelDir then some (join [kernelDir,kernelName]) else none := by
  rcases opened : (fileSystem.answer files (.openDir kernelDir)).2 with _ | e
  · obtain ⟨found,finds,gets⟩ := @finds_kernelsAmong Files fileSystem files kernelDir
      (entriesOf fileSystem files kernelDir) .empty
    refine ⟨found,finds_call rfl ?_,gets⟩
    rw [opened]
    rw [entriesOf_opened opened] at finds
    exact finds_call rfl finds
  · refine ⟨.empty,finds_call rfl ?_,?_⟩
    · rw [opened]
      exact finds_pure _
    · intro kernelName
      simp [hasKernel,entriesOf_closed opened]

theorem addKernels_get? (kernelsDict kernels : Dict String String) (kernelName : String) :
    (addKernels kernelsDict kernels).get? kernelName = (kernels.get? kernelName).or (kernelsDict.get? kernelName) :=
  Dict.get?_foldl_insert kernels.sorted kernelsDict kernelName

/-- Of several directories with a kernel the last one counts. -/
theorem finds_findIn (dirs : List String) (kernelsDict : Dict String String) :
    ∃ found, Finds fileSystem files (findIn dirs kernelsDict) found ∧ ∀ kernelName,
      found.get? kernelName =
        ((dirs.filter (hasKernel fileSystem files kernelName)).getLast?.map (fun dir => join [dir,kernelName])).or
          (kernelsDict.get? kernelName) := by
  induction dirs generalizing kernelsDict with
  | nil => exact ⟨kernelsDict,finds_pure _,fun _ => rfl⟩
  | cons dir dirs ih =>
    obtain ⟨kernels,listed,lists⟩ := @finds_listKernelsIn Files fileSystem files dir
    obtain ⟨found,finds,gets⟩ := ih (addKernels kernelsDict kernels)
    refine ⟨found,finds_bind listed finds,?_⟩
    intro kernelName
    rw [gets,addKernels_get?,lists]
    cases has : hasKernel fileSystem files kernelName dir with
    | true =>
      rw [List.filter_cons_of_pos has,List.getLast?_cons]
      cases (dirs.filter (hasKernel fileSystem files kernelName)).getLast? <;> rfl
    | false =>
      rw [List.filter_cons_of_neg (by simp [has])]
      rfl

theorem finds_fromResourceDir (resourceDir : String) :
    Finds fileSystem files (fromResourceDir resourceDir) (specAt fileSystem files resourceDir) := by
  refine finds_call rfl ?_
  unfold specAt
  cases (fileSystem.answer files (.readFile (join [resourceDir,"kernel.json"]))).2 with
  | ok byteValue => exact finds_pure _
  | error e => exact finds_pure _

theorem finds_readSpecs (specs : List (String × String)) (res : Dict String KspecData) :
    Finds fileSystem files (readSpecs specs res)
      ((specs.map (fun e => (e.1,KspecData.mk e.2 (specAt fileSystem files e.2)))).foldl
        (fun dict e => dict.insert e.1 e.2) res) := by
  induction specs generalizing res with
  | nil => exact finds_pure _
  | cons e specs ih => exact finds_bind (finds_fromResourceDir e.2) (ih _)

/-- Every kernel is listed from the last directory that has it. -/
theorem finds_getAllSpecs (jupyterPath : List String) :
    ∃ specs, Finds fileSystem files (getAllSpecs jupyterPath) specs ∧ ∀ kernelName,
      specs.get? kernelName = (dirsWith fileSystem files jupyterPath kernelName).getLast?.map (fun dir =>
        ⟨join [dir,kernelName],specAt fileSystem files (join [dir,kernelName])⟩) := by
  obtain ⟨dict,finds,gets⟩ := @finds_findIn Files fileSystem files (getKernelDirs jupyterPath) .empty
  refine ⟨_,finds_bind finds (finds_readSpecs dict.entries .empty),?_⟩
  intro kernelName
  have found : (dict.entries.find? (fun e => e.1 = kernelName)).map (·.2) = dict.get? kernelName := rfl
  rw [gets,Dict.get?_empty,Option.or_none] at found
  rw [Dict.get?_foldl_insert (sorted_map (fun _ dir => KspecData.mk dir (specAt fileSystem files dir)) dict.sorted),
    Dict.get?_empty,Option.or_none,List.find?_map,Option.map_map,dirsWith]
  calc _ = ((dict.entries.find? (fun e => e.1 = kernelName)).map (·.2)).map
        (fun dir => KspecData.mk dir (specAt fileSystem files dir)) := by rw [Option.map_map]; rfl
    _ = _ := by rw [found,Option.map_map]; rfl

/-- A single kernel is read from the first directory that has it. -/
theorem finds_getKernelSpec (jupyterPath : List String) (kernelName : String) :
    Finds fileSystem files (getKernelSpec jupyterPath kernelName)
      (specAt fileSystem files (((dirsWith fileSystem files jupyterPath kernelName).head?.map
        (fun dir => join [dir,kernelName])).getD "")) :=
  finds_bind (finds_findInDirs kernelName _) (finds_fromResourceDir _)

theorem specAt_resourceDir (resourceDir : String) : (specAt fileSystem files resourceDir).resourceDir = resourceDir := by
  unfold specAt
  split <;> rfl

end

/-- What is listed under the name is what is launched under it, and what is not listed
    has the empty spec. -/
def SameSpec {Files : Type} (fileSystem : FileSystem Files) (files : Files) (jupyterPath : List String)
    (kernelName : String) : Prop :=
  ∃ specs spec, ((getAllSpecs jupyterPath).run fileSystem.answer files).2 = .ok specs ∧
    ((getKernelSpec jupyterPath kernelName).run fileSystem.answer files).2 = .ok spec ∧
    match specs.get? kernelName with
    | some data => spec = data.spec ∧ spec.resourceDir = data.resourceDir
    | none => spec = kernelSpecJsonData.zero

/-- The working directory has no `kernel.json` that can be read, or one that says nothing. -/
def Silent {Files : Type} (fileSystem : FileSystem Files) (files : Files) : Prop :=
  ∀ byteValue, (fileSystem.answer files (.readFile "kernel.json")).2 = .ok byteValue →
    specIn "" byteValue = kernelSpecJsonData.zero

theorem silent_iff {Files : Type} {fileSystem : FileSystem Files} {files : Files} :
    Silent fileSystem files ↔ specAt fileSystem files "" = kernelSpecJsonData.zero := by
  have name : join ["","kernel.json"] = "kernel.json" := by decide
  unfold Silent specAt
  rw [name]
  rcases read : (fileSystem.answer files (.readFile "kernel.json")).2 with e | byteValue
  · simp only [reduceCtorEq,false_implies,implies_true,true_iff]
    rfl
  · simp

/-- What is launched and what is listed, as the files have it. -/
theorem sameSpec_found {Files : Type} {fileSystem : FileSystem Files} {files : Files} {jupyterPath : List String}
    {kernelName : String} : SameSpec fileSystem files jupyterPath kernelName ↔
      let spec := specAt fileSystem files (((dirsWith fileSystem files jupyterPath kernelName).head?.map
        (fun dir => join [dir,kernelName])).getD "")
      match (dirsWith fileSystem files jupyterPath kernelName).getLast? with
      | some last => spec = specAt fileSystem files (join [last,kernelName]) ∧ spec.resourceDir = join [last,kernelName]
      | none => spec = kernelSpecJsonData.zero := by
  obtain ⟨specs,lists,gets⟩ := @finds_getAllSpecs Files fileSystem files jupyterPath
  have launches := @finds_getKernelSpec Files fileSystem files jupyterPath kernelName
  unfold SameSpec
  rw [lists,launches]
  simp only [Except.ok.injEq,exists_and_left,exists_eq_left',gets kernelName]
  cases (dirsWith fileSystem files jupyterPath kernelName).getLast? <;> rfl

/-- The first and the last directory that have the kernel are one, or none has it and
    the working directory is silent. -/
def Agree {Files : Type} (fileSystem : FileSystem Files) (files : Files) (jupyterPath : List String)
    (kernelName : String) : Prop :=
  match (dirsWith fileSystem files jupyterPath kernelName).head?,
    (dirsWith fileSystem files jupyterPath kernelName).getLast? with
  | some first,some last => join [first,kernelName] = join [last,kernelName]
  | _,_ => Silent fileSystem files

theorem sameSpec_iff {Files : Type} (fileSystem : FileSystem Files) (files : Files) (jupyterPath : List String)
    (kernelName : String) :
    SameSpec fileSystem files jupyterPath kernelName ↔ Agree fileSystem files jupyterPath kernelName := by
  rw [sameSpec_found,Agree]
  cases dirsWith fileSystem files jupyterPath kernelName with
  | nil => exact silent_iff.symm
  | cons first rest =>
    rw [List.getLast?_cons]
    simp only [List.head?_cons,Option.map_some,Option.getD_some,specAt_resourceDir]
    exact ⟨And.right,fun same => ⟨by rw [same],same⟩⟩

/-- Files in which every directory has a kernel `k`, whose file cannot be read. -/
def everywhere : FileSystem Unit where
  answer _ c := ((),match c with
    | .getwd => .ok "/"
    | .lstat _ | .stat _ => .ok ⟨"k",true,0,""⟩
    | .readFile _ => .error ⟨false,""⟩
    | .readDir _ => ([⟨"k",by decide⟩],none)
    | .writeFile _ _ | .openFile _ | .openDir _ | .mkdirAll _ | .rename _ _ | .remove _ => none)
  kept _ _ _ := rfl

theorem twoDirs_differ : ¬ SameSpec everywhere () ["/a","/b"] "k" := by
  have dirs : dirsWith everywhere () ["/a","/b"] "k" = ["/a/kernels","/b/kernels"] := by decide
  rw [sameSpec_found,dirs]
  rintro ⟨-,path⟩
  rw [specAt_resourceDir] at path
  exact absurd path (by decide)

end Zasper.Kernelspecs
