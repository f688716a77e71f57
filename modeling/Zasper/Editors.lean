import Zasper.JsonValues
import Zasper.Tabs

/-!
# Editors

The content panel with the components that show the tabs, and what a user and the
server do to it, one event after the other. A component is named by the path of the
tab it shows. `log` has no counterpart in the program: it records, newest first, what
was loaded and edited under which path. `codeMirror` is the text that a `CodeMirror`
shows, and hands back once it is edited, for a text that it is given.
-/
namespace Zasper.Editors
open Zasper.JsonValues Zasper.JsObjects Zasper.JsObjects.JsObject Zasper.Tabs
set_option linter.unusedSimpArgs false

/-! ## Contents -/

/-- A cell: `id` and `reload` are added by the page, `fields` are the others. -/
structure ICell where
  id : String
  reload : Bool
  fields : List (String × Json)
deriving DecidableEq

def ICell.source (cell : ICell) : String :=
  match cell.fields.find? (fun e => e.1 = "source") with
  | some (_,.str source) => source
  | _ => ""

def ICell.withSource (cell : ICell) (source : String) : ICell :=
  { cell with
    fields := if cell.fields.any (fun e => e.1 = "source") then
        cell.fields.map (fun e => if e.1 = "source" then (e.1,.str source) else e)
      else cell.fields ++ [("source",.str source)] }

/-- A notebook, `fields` being its version numbers. -/
structure INotebookModel where
  cells : List ICell
  metadata : Json
  fields : List (String × Json)
deriving DecidableEq

inductive Content where
  | text (s : String)
  | notebook (n : INotebookModel)
deriving DecidableEq

/-- What the server answers to a request for content. -/
inductive Reply where
  /-- The content of a file, where the answer has one. -/
  | file (content : Option String)
  /-- A notebook, its `cells` possibly null. -/
  | notebook (cells : Option (List (List (String × Json)))) (metadata : Json) (fields : List (String × Json))
  /-- No answer, or one that is not understood. -/
  | failed
deriving DecidableEq

def emptyCell : List (String × Json) :=
  [("execution_count",.num (.int 0)),("source",.str ""),("cell_type",.str "code"),("outputs",.arr [])]

/-- The notebook of an answer, its cells numbered by `uuidv4`. -/
def received (uuidv4 : Nat → String) (cells : Option (List (List (String × Json)))) (metadata : Json)
    (fields : List (String × Json)) : INotebookModel :=
  ⟨(cells.getD [emptyCell]).zipIdx.map (fun c => ⟨uuidv4 c.2,false,c.1⟩),metadata,fields⟩

/-! ## Components -/

/-- The state of a `FileEditor`, with the text that its `CodeMirror` shows. -/
structure FileEditor where
  fileContents : Option String
  document : String
deriving DecidableEq

structure NotebookEditor where
  notebook : INotebookModel
  kernelName : String
  focusedIndex : Int
deriving DecidableEq

/-- The components with the states that matter to what is saved. -/
inductive Component where
  | launcher
  | imageEditor
  | fileEditor (editor : FileEditor)
  | notebookEditor (editor : NotebookEditor)
  | terminalTab
  | fragment
deriving DecidableEq

def Component.kind : Component → Kind
  | .launcher => .launcher
  | .imageEditor => .imageEditor
  | .fileEditor _ => .fileEditor
  | .notebookEditor _ => .notebookEditor
  | .terminalTab => .terminalTab
  | .fragment => .fragment

/-- A component in its first state. -/
def mount (data : IfileTab) : Component :=
  match Editor data with
  | .launcher => .launcher
  | .imageEditor => .imageEditor
  | .fileEditor => .fileEditor ⟨some "",""⟩
  | .notebookEditor =>
    .notebookEditor ⟨⟨[],.obj [],[("nbformat",.num (.int 4)),("nbformat_minor",.num (.int 5))]⟩,data.kernelspec,0⟩
  | .terminalTab => .terminalTab
  | .fragment => .fragment

/-- A mounted component and its properties. -/
structure Pane where
  data : IfileTab
  component : Component
  /-- The paths whose contents it awaits. -/
  fetching : List String
  /-- The last answer had a content. -/
  loaded : Bool
deriving DecidableEq

/-- The pane at an index once its tab is `tab`: kept where the component stays the same. -/
def reconcile (tab : IfileTab) : Option Pane → Pane
  | some pane => if pane.component.kind = Editor tab then { pane with data := tab } else ⟨tab,mount tab,[],false⟩
  | none => ⟨tab,mount tab,[],false⟩

/-- The effect that runs when the tab of a pane changes: `FetchFileData`, and
    `startASession` of a notebook. -/
def Pane.effect (pane : Pane) : Pane :=
  if pane.data.loadRequired then
    match pane.component with
    | .fileEditor _ => { pane with fetching := pane.fetching ++ [pane.data.path] }
    | .notebookEditor editor =>
      { pane with
        fetching := pane.fetching ++ [pane.data.path]
        component := .notebookEditor { editor with kernelName := pane.data.kernelspec } }
    | _ => pane
  else pane

def contentPanel : List IfileTab → List Pane → List Pane
  | [], _ => []
  | tab :: tabs, panes => (reconcile tab panes.head?).effect :: contentPanel tabs panes.tail

/-! ## Notebooks -/

/-- `slice(0,i)` and `slice(i)` of a list. -/
def sliceAt {Item : Type} (items : List Item) (i : Int) : List Item × List Item :=
  items.splitAt (if i < 0 then items.length + i else i).toNat

def newCell (id : String) : ICell := ⟨id,false,emptyCell ++ [("metadata",.obj [])]⟩

def addCellUp (focusedIndex : Int) (id : String) (cells : List ICell) : List ICell :=
  (sliceAt cells focusedIndex).1 ++ newCell id :: (sliceAt cells focusedIndex).2

def addCellDown (focusedIndex : Int) (id : String) (cells : List ICell) : List ICell :=
  let index := if 0 ≤ focusedIndex ∧ focusedIndex < cells.length then focusedIndex + 1 else cells.length
  (sliceAt cells index).1 ++ newCell id :: (sliceAt cells index).2

/-- The text of the cells with an id is edited. -/
def updateCellSource (cellId : String) (change : String → String) (cells : List ICell) : List ICell :=
  cells.map (fun cell => if cell.id = cellId then cell.withSource (change cell.source) else cell)

def getNotebookMetaData (kernelName : String) : Json :=
  .obj [("kernelspec",.str kernelName),("name",.str kernelName),("display_name",.str kernelName)]

def NotebookEditor.withCells (editor : NotebookEditor) (change : List ICell → List ICell) : NotebookEditor :=
  { editor with notebook := { editor.notebook with cells := change editor.notebook.cells } }

/-! ## The page -/

/-- What happened to the contents of paths. -/
inductive Entry where
  /-- A tab was opened for the path. -/
  | opened (path kernelspec : String)
  | loaded (path : String) (content : Content)
  | typed (path : String) (change : String → String)
  | edited (path : String) (change : List ICell → List ICell)
  | kernelChanged (path kernelName : String)

structure UI where
  /-- The page could not be drawn, and is gone. -/
  crashed : Bool
  fileTabsState : JsObject IfileTab
  panes : List Pane
  /-- The tabs that each pending creation of a notebook goes back to, and its kernel. -/
  creating : List (JsObject IfileTab × String)
  /-- The kernel of each notebook, by its path. -/
  notebookKernelMap : JsObject String
  log : List Entry

inductive Request where
  | putContents (path : String) (content : Option Content) (type format : String)
  | deleteKernel (id : String)
deriving DecidableEq

/-- A request, with what had happened when it was sent. -/
structure Sent where
  request : Request
  log : List Entry

inductive Event where
  /-- A file or a tab is clicked. -/
  | activate (name path type kernelspec : String)
  | close (key : String)
  /-- A notebook is asked for in the launcher; `created` is the answer. -/
  | create (kernelspec : String)
  | created (i : Nat) (name path : String)
  /-- The answer to the request `i` of the editor of the path. -/
  | answer (path : String) (i : Nat) (reply : Reply) (uuidv4 : Nat → String)
  | type (path : String) (change : String → String)
  /-- The text of a cell is edited in its `CodeMirror`. -/
  | typeCell (path cellId : String) (change : String → String)
  /-- Any other edit of the cells of a notebook in its editor. -/
  | edit (path : String) (change : List ICell → List ICell)
  /-- Ctrl+A or Ctrl+B reaches the listener that the editor of the path put on the window. -/
  | keydown (path : String) (up : Bool) (uuid : String)
  | focus (path : String) (i : Int)
  | changeKernel (path value : String)
  /-- The answer to `startASession`. -/
  | started (path kernelId : String)
  | save (path : String)

/-- The pane that shows the tab of the path, on screen or not. -/
def paneOf (ui : UI) (path : String) : Option Pane := ui.panes.find? (fun pane => pane.data.path = path)

/-- The pane of the path, where it is on screen. -/
def visible (ui : UI) (path : String) : Option Pane := (paneOf ui path).filter (fun pane => pane.data.active)

/-- The page with another pane for the tab of that pane, and what is to be recorded. -/
def UI.put (ui : UI) (pane : Pane) (entries : List Entry) : UI :=
  { ui with
    panes := ui.panes.map (fun p => if p.data.path = pane.data.path then pane else p)
    log := entries ++ ui.log }

def UI.render (ui : UI) (tabs : JsObject IfileTab) : UI :=
  { ui with fileTabsState := tabs, panes := contentPanel tabs.values ui.panes }

/-- `handleTabActivate` of a component that was drawn with the tabs `tabs`. -/
def UI.activate (ui : UI) (tabs : JsObject IfileTab) (name path type kernelspec : String) : UI :=
  match handleTabActivate tabs name path type kernelspec with
  | none => { ui with crashed := true }
  | some updated =>
    { ui with log := if Opens tabs path then .opened path kernelspec :: ui.log else ui.log }.render updated

section
variable (codeMirror : String → String)

/-- The pane once an answer to its request for `path` has arrived. -/
def Pane.receive (pane : Pane) (path : String) (reply : Reply) (uuidv4 : Nat → String) : Pane × List Entry :=
  match pane.component, reply with
  | .fileEditor _, .file (some content) =>
    ({ pane with component := .fileEditor ⟨some content,codeMirror content⟩, loaded := true },
      [.loaded path (.text content)])
  | .fileEditor editor, .file none =>
    ({ pane with component := .fileEditor { editor with fileContents := none }, loaded := false },[])
  | .notebookEditor editor, .notebook cells metadata fields =>
    let notebook := received uuidv4 cells metadata fields
    ({ pane with component := .notebookEditor { editor with notebook := notebook }, loaded := true },
      [.loaded path (.notebook notebook)])
  | _, _ => ({ pane with loaded := false },[])

/-- `handleCmdEnter` of the editor in a pane, with the editor after it. -/
def Pane.handleCmdEnter (pane : Pane) : Option (Pane × Request) :=
  match pane.component with
  | .fileEditor editor =>
    some (pane,.putContents pane.data.path (editor.fileContents.map Content.text) "file" "text")
  | .notebookEditor editor =>
    let notebook := { editor.notebook with metadata := getNotebookMetaData editor.kernelName }
    some ({ pane with component := .notebookEditor { editor with notebook := notebook } },
      .putContents pane.data.path (some (.notebook notebook)) "notebook" "json")
  | _ => none

/-- The page after an event, and the request that is sent. -/
def handle (ui : UI) : Event → UI × Option Sent
  | .activate name path type kernelspec => (ui.activate ui.fileTabsState name path type kernelspec,none)
  | .close key =>
    match handleTabClose ui.notebookKernelMap ui.fileTabsState key with
    | some (tabs,kernelId) => (ui.render tabs,kernelId.map (fun id => ⟨.deleteKernel id,ui.log⟩))
    | none => (ui,none)
  | .create kernelspec =>
    if ui.panes.any (fun pane => pane.component.kind = .launcher && pane.data.active) then
      ({ ui with creating := ui.creating ++ [(ui.fileTabsState,kernelspec)] },none)
    else (ui,none)
  | .created i name path =>
    match ui.creating[i]? with
    | some (tabs,kernelspec) =>
      ({ ui with creating := ui.creating.eraseIdx i }.activate tabs name path "notebook" kernelspec,none)
    | none => (ui,none)
  | .answer path i reply uuidv4 =>
    match paneOf ui path with
    | some pane =>
      match pane.fetching[i]? with
      | some requested =>
        let (next,entries) := { pane with fetching := pane.fetching.eraseIdx i }.receive codeMirror requested reply uuidv4
        (ui.put next entries,none)
      | none => (ui,none)
    | none => (ui,none)
  | .type path change =>
    match visible ui path with
    | some { data, component := .fileEditor editor, fetching, loaded } =>
      let document := codeMirror (change editor.document)
      (ui.put ⟨data,.fileEditor ⟨some document,document⟩,fetching,loaded⟩ [.typed path change],none)
    | _ => (ui,none)
  | .typeCell path cellId change =>
    match visible ui path with
    | some { data, component := .notebookEditor editor, fetching, loaded } =>
      let typed := updateCellSource cellId (fun source => codeMirror (change (codeMirror source)))
      (ui.put ⟨data,.notebookEditor (editor.withCells typed),fetching,loaded⟩
        [.edited path (updateCellSource cellId change)],none)
    | _ => (ui,none)
  | .edit path change =>
    match visible ui path with
    | some { data, component := .notebookEditor editor, fetching, loaded } =>
      (ui.put ⟨data,.notebookEditor (editor.withCells change),fetching,loaded⟩ [.edited path change],none)
    | _ => (ui,none)
  | .keydown path up uuid =>
    match paneOf ui path with
    | some { data, component := .notebookEditor editor, fetching, loaded } =>
      let change := if up then addCellUp editor.focusedIndex uuid else addCellDown editor.focusedIndex uuid
      (ui.put ⟨data,.notebookEditor (editor.withCells change),fetching,loaded⟩
        (if data.active then [.edited path change] else []),none)
    | _ => (ui,none)
  | .focus path i =>
    match visible ui path with
    | some { data, component := .notebookEditor editor, fetching, loaded } =>
      (ui.put ⟨data,.notebookEditor { editor with focusedIndex := i },fetching,loaded⟩ [],none)
    | _ => (ui,none)
  | .changeKernel path value =>
    match visible ui path with
    | some { data, component := .notebookEditor editor, fetching, loaded } =>
      ({ ui with notebookKernelMap := ui.notebookKernelMap.delete path }.put
        ⟨data,.notebookEditor { editor with kernelName := value },fetching,loaded⟩ [.kernelChanged path value],none)
    | _ => (ui,none)
  | .started path kernelId => ({ ui with notebookKernelMap := ui.notebookKernelMap.assign path kernelId },none)
  | .save path =>
    match (visible ui path).bind Pane.handleCmdEnter with
    | some (pane,request) => (ui.put pane [],some ⟨request,ui.log⟩)
    | none => (ui,none)

/-- What is meant for an editor that is not on screen does nothing. -/
theorem handle_hidden {ui : UI} {path : String} (hidden : visible ui path = none) :
    (∀ change, handle codeMirror ui (.type path change) = (ui,none)) ∧
      (∀ cellId change, handle codeMirror ui (.typeCell path cellId change) = (ui,none)) ∧
      (∀ change, handle codeMirror ui (.edit path change) = (ui,none)) ∧
      (∀ i, handle codeMirror ui (.focus path i) = (ui,none)) ∧
      (∀ value, handle codeMirror ui (.changeKernel path value) = (ui,none)) ∧
      handle codeMirror ui (.save path) = (ui,none) := by
  simp [handle,hidden]

/-- A page that is gone answers to nothing. -/
def step (ui : UI) (event : Event) : UI × Option Sent := if ui.crashed then (ui,none) else handle codeMirror ui event

end

/-- The page when it has been loaded. -/
def start : UI := UI.render ⟨false,JsObject.empty,[],[],JsObject.empty,[]⟩ defaultFileTabState

end Zasper.Editors
