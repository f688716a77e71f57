import Zasper.Encodings
import Zasper.NotebookJson
import Zasper.OperatingSystem

/-!
# The content manager

Reading, creating, renaming, deleting and saving the files of a project: the
functions of the content manager as programs over the file calls. `home` is the
project's directory. Loops that look for a free name run on fuel.
-/
namespace Zasper.ContentManager
open Zasper.Maps Zasper.JsonValues Zasper.JsonText Zasper.Strings Zasper.Structs Zasper.Paths Zasper.Programs
open Zasper.OperatingSystem Zasper.Notebooks Zasper.NotebookJson Zasper.Encodings
set_option linter.unusedSimpArgs false

/-! ## Models -/

/-- A file without its content, as a directory lists it. -/
structure EntryModel where
  name : String
  contentType : String
  path : String
  lastModified : String
  created : String
  size : Int64
deriving DecidableEq

def EntryModel.zero : EntryModel := ⟨"","","","","",0⟩

inductive Content where
  | none
  | text (bytes : List UInt8)
  | notebook (nb : Notebook)
  | entries (list : List EntryModel)

structure ContentModel extends EntryModel where
  content : Content

def ContentModel.zero : ContentModel := { EntryModel.zero with content := .none }

structure ContentPayload where
  contentType : String
  parentDir : String
deriving DecidableEq

/-- A path below `home`, empty where the path leads elsewhere. -/
def getSafePath (home path : String) : Os String := do
  let cleanPath := clean path
  let abspath := join [home,cleanPath]
  match ← filepathAbs abspath with
  | .error _ => pure ""
  | .ok absPathResolved => pure (if hasPrefix absPathResolved home then absPathResolved else "")

/-! ## Reading -/

def pngPrefix : String := "data:image/png;base64,"

/-- What the content of a file is handed on as: an image as the text of a data URL. -/
def fileContent (path : String) (file : List UInt8) : List UInt8 :=
  if ext (base path) = ".png" then utf8 (pngPrefix.toList ++ base64 file) else file

def readFileContent (path : String) : Os (Except OsError (List UInt8)) := .call (.readFile path) (fun
  | .error e => pure (.error e)
  | .ok file => pure (.ok (fileContent path file)))

/-- The error of the decoding is not looked at. -/
def nbformatReads (data : List UInt8) : Notebook := parseNotebook (notebookDisk.unmarshal data notebookDisk.zero).1

def getNotebookModel (home path : String) : Os (Except OsError ContentModel) := do
  let osPath ← getSafePath home path
  .call (.lstat osPath) (fun
    | .error e => pure (.error e)
    | .ok info => do
      match ← readFileContent osPath with
      | .error e => pure (.error e)
      | .ok content =>
        pure (.ok
          { name := info.name
            contentType := ""
            path := path
            lastModified := info.modTime
            created := info.modTime
            size := info.size
            content := .notebook (nbformatReads content) }))

def getFileModelWithContent (home path : String) : Os (Except OsError ContentModel) := do
  let osPath ← getSafePath home path
  .call (.lstat osPath) (fun
    | .error e => pure (.error e)
    | .ok info => do
      match ← readFileContent osPath with
      | .error e => pure (.error e)
      | .ok content =>
        pure (.ok
          { name := info.name
            contentType := ""
            path := path
            lastModified := info.modTime
            created := info.modTime
            size := info.size
            content := .text content }))

def getFileModel (abspath relativePath fileName : String) : Os (Except OsError EntryModel) :=
  .call (.lstat (join [abspath,fileName])) (fun
    | .error e => pure (.error e)
    | .ok info =>
      let contentType := if ext fileName = ".ipynb" then "notebook" else "file"
      pure (.ok
        { name := info.name
          contentType := if info.isDir then "directory" else contentType
          path := if relativePath = "." then fileName else relativePath ++ "/" ++ fileName
          lastModified := info.modTime
          created := info.modTime
          size := info.size }))

/-- Directories come before what is no directory, and names in their order. -/
def entryLess (a b : EntryModel) : Bool :=
  if a.contentType ≠ b.contentType then a.contentType = "directory" else a.name < b.name

/-- The models of the entries of a directory; an entry whose model cannot be made
    is listed as an empty model. -/
def getFileModels (abspath relativePath : String) : List EntryName → Os (List EntryModel)
  | [] => pure []
  | v :: files => do
    let fileContent ← getFileModel abspath relativePath v.name
    let rest ← getFileModels abspath relativePath files
    pure ((match fileContent with
      | .ok model => model
      | .error _ => .zero) :: rest)

/-- The model of a directory, with a way to sort its entries. -/
def getDirectoryModelBy (sort : List EntryModel → List EntryModel) (home relativePath : String) :
    Os (Except OsError ContentModel) := do
  let abspath ← getSafePath home relativePath
  .call (.lstat abspath) (fun
    | .error e => pure (.error e)
    | .ok info => .call (.openDir abspath) (fun opened => do
      let (files,err) ← readOpened abspath opened
      let models ← getFileModels abspath relativePath files
      let listOfContents := if err.isSome then [] else models
      pure (.ok
        { name := relativePath
          contentType := "directory"
          path := relativePath
          lastModified := info.modTime
          created := info.modTime
          size := 0
          content := .entries (sort listOfContents) })))

def getDirectoryModel (home relativePath : String) : Os (Except OsError ContentModel) :=
  getDirectoryModelBy (fun listOfContents => listOfContents.mergeSort (fun a b => !entryLess b a)) home relativePath

/-- The error of the model that is read is not looked at. -/
def getContent (home relativePath contentType : String) : Os (Except OsError ContentModel) := do
  let osPath ← getSafePath home relativePath
  .call (.lstat osPath) (fun
    | .error e => pure (.error e)
    | .ok info => do
      let model ←
        if info.isDir then getDirectoryModel home relativePath
        else if contentType = "notebook" then getNotebookModel home relativePath
        else getFileModelWithContent home relativePath
      pure (.ok (match model with
        | .ok model => model
        | .error _ => .zero)))

/-! ## Creating -/

/-- Any error but one that says so counts as the file's being there. -/
def fileExists (path : String) : Os Bool := .call (.stat path) (fun
  | .ok _ => pure true
  | .error e => pure (!e.notExist))

def directoryExists (path : String) : Os Bool := .call (.stat path) (fun
  | .ok info => pure info.isDir
  | .error _ => pure false)

def numbered (start ending : String) (i : Nat) : String := start ++ String.ofList (Nat.toDigits 10 i) ++ ending

/-- Counts up from `i` until there is no file at the path. -/
def freePath (parentDir start ending : String) : Nat → Nat → String → Os String
  | 0, _, _ => .stop .fuel
  | fuel+1, i, path => do
    if ← fileExists path then freePath parentDir start ending fuel (i+1) (join [parentDir,numbered start ending (i+1)])
    else pure path

def createdModel (payload : ContentPayload) (path : String) (info : FileInfo) : ContentModel :=
  { contentType := payload.contentType
    path := join [payload.parentDir,base path]
    name := base path
    created := info.modTime
    lastModified := info.modTime
    size := info.size
    content := .none }

/-- The information on the created file is followed also where there is none. -/
def statCreated (payload : ContentPayload) (path : String) : Os ContentModel := .call (.lstat path) (fun info => do
  let info ← Program.follow info.toOption
  pure (createdModel payload path info))

def newUntitledFile (fuel : Nat) (home : String) (payload : ContentPayload) : Os ContentModel := do
  let parentDir ← getSafePath home payload.parentDir
  let path ← freePath parentDir "untitled" ".txt" fuel 0 (join [parentDir,"untitled.txt"])
  .call (.openFile path) (fun _ => statCreated payload path)

def defaultNotebook : String := "\x7b\t\"cells\": [], \"metadata\": \x7b\x7d, \"nbformat\": 4, \"nbformat_minor\": 4\x7d"

def newUntitledNotebook (fuel : Nat) (home : String) (payload : ContentPayload) : Os ContentModel := do
  let parentDir ← getSafePath home payload.parentDir
  let path ← freePath parentDir "Untitled" ".ipynb" fuel 0 (join [parentDir,"Untitled.ipynb"])
  .call (.openFile path) (fun _ =>
    .call (.writeFile path (utf8 defaultNotebook.toList)) (fun _ => statCreated payload path))

/-- Counts up from `i` until there is no directory at the path. -/
def freeDirectory (home parentDir dirName : String) : Nat → Nat → String → Os String
  | 0, _, _ => .stop .fuel
  | fuel+1, i, dirPath => do
    if ← directoryExists dirPath then
      let next ← getSafePath home (join [parentDir,numbered (dirName ++ "-") "" (i+1)])
      freeDirectory home parentDir dirName fuel (i+1) next
    else pure dirPath

def createDirectory (fuel : Nat) (home : String) (payload : ContentPayload) : Os ContentModel := do
  let dirName := "untitled-directory"
  let first ← getSafePath home (join [payload.parentDir,dirName])
  let dirPath ← freeDirectory home payload.parentDir dirName fuel 0 first
  .call (.mkdirAll dirPath) (fun _ => pure
    { ContentModel.zero with contentType := payload.contentType, path := dirPath, name := base dirName })

def createContent (fuel : Nat) (home : String) (payload : ContentPayload) : Os ContentModel :=
  if payload.contentType = "notebook" then newUntitledNotebook fuel home payload
  else if payload.contentType = "directory" then createDirectory fuel home payload
  else newUntitledFile fuel home payload

/-! ## Renaming and deleting -/

/-- The error of the call is only logged. -/
def rename (home parentDir oldName newName : String) : Os (Option OsError) := do
  let old ← getSafePath home (join [parentDir,oldName])
  let new ← getSafePath home (join [parentDir,newName])
  .call (.rename old new) (fun _ => pure none)

def deleteFile (home filename : String) : Os (Option OsError) := do
  let path ← getSafePath home filename
  .call (.remove path) pure

/-! ## Saving -/

/-- Why a save failed. -/
inductive SaveError where
  | unmarshal (cause : UnmarshalError)
  /-- The name of a type that is no content. -/
  | contentType (got : String)
  | write (path : String) (cause : OsError)
deriving DecidableEq

/-- `%T` of a decoded value. -/
def typeName : Json → String
  | .null => "<nil>"
  | .bool _ => "bool"
  | .num _ => "float64"
  | .str _ => "string"
  | .arr _ => "[]interface \x7b\x7d"
  | .obj _ => "map[string]interface \x7b\x7d"

/-- The text of an error, without the text of its cause. -/
def SaveError.text : SaveError → String
  | .unmarshal _ => "failed to unmarshal content into notebook: "
  | .contentType got =>
    "content is not a valid type (expected string, []byte, or map[string]interface\x7b\x7d), got: " ++ got
  | .write path _ => "error writing notebook to path " ++ path ++ ": "

/-- The bytes that a notebook content is saved as. -/
def notebookBytes (content : Value) : Except SaveError (List UInt8) :=
  let contentBytes : Option (List UInt8) :=
    match content.json with
    | .str v => some (utf8 v.toList)
    | .obj members => some (marshal (.obj members))
    | _ => none
  match contentBytes with
  | none => .error (.contentType (typeName content.json))
  | some bytes =>
    match notebook.unmarshal bytes notebook.zero with
    | (_,some cause) => .error (.unmarshal cause)
    | (nb,none) => .ok (marshalIndent (notebookDisk.encode (convertToNbDisk nb)))

def updateNbContent (path : String) (content : Value) : Os (Option SaveError) :=
  match notebookBytes content with
  | .error e => pure (some e)
  | .ok nbJSON => .call (.writeFile path nbJSON) (fun err => pure (err.map (SaveError.write path)))

def updateContent (path : String) (content : String) : Os (Option OsError) :=
  .call (.writeFile path (utf8 content.toList)) pure

end Zasper.ContentManager
