import Zasper.Editors

/-!
# Notebook cells

The cells of a notebook in its editor, and what the buttons, the keys and the messages
of the kernel do to them. The outputs of a cell are a reference to an array, which
copies of the cell share. `issued` has no counterpart in the program: it records the
ids that `uuidv4` has returned.
-/
namespace Zasper.NotebookCells
open Zasper.JsonValues
open Zasper.Editors (sliceAt)
set_option linter.unusedSimpArgs false

structure ICell where
  cellType : String
  id : String
  executionCount : Int
  source : String
  /-- The array of the outputs, by its place among all arrays; none where the server
      answered null. -/
  outputs : Option Nat
  metadata : Option Json
  reload : Bool
deriving DecidableEq

structure NotebookEditor where
  cells : List ICell
  focusedIndex : Int
  copiedCell : Option ICell
  cutCellIndex : Option Int
  /-- The arrays of outputs that were ever made. -/
  arrays : List (List Json)
  issued : List String
deriving DecidableEq

/-- The editor in its first state. -/
def mounted : NotebookEditor := ⟨[],0,none,none,[],[]⟩

/-- `cells[index]`. -/
def cellAt (cells : List ICell) (index : Int) : Option ICell := if 0 ≤ index then cells[index.toNat]? else none

theorem cellAt_mem {cells : List ICell} {index : Int} {cell : ICell} (here : cell ∈ cellAt cells index) :
    cell ∈ cells := by
  unfold cellAt at here
  split_ifs at here
  · exact List.mem_of_getElem? here
  · cases here

/-- A cell as the server answers it. -/
structure SavedCell where
  cellType : String
  executionCount : Int
  source : String
  outputs : Option (List Json)
  metadata : Option Json

def defaultCell : SavedCell := ⟨"code",0,"",some [],none⟩

/-- The cells of an answer take the place of those shown; the focus stays. -/
def FetchFileData (cells : Option (List SavedCell)) (uuidv4 : Nat → String) (editor : NotebookEditor) : NotebookEditor :=
  let saved := cells.getD [defaultCell]
  { editor with
    cells := saved.zipIdx.map (fun c =>
      ⟨c.1.cellType,uuidv4 c.2,c.1.executionCount,c.1.source,c.1.outputs.map (fun _ => editor.arrays.length + c.2),
        c.1.metadata,false⟩)
    arrays := editor.arrays ++ saved.map (fun c => c.outputs.getD [])
    issued := editor.issued ++ (List.range saved.length).map uuidv4 }

/-! ## Cells in a list -/

def newCell (id : String) (outputs : Nat) : ICell := ⟨"code",id,0,"",some outputs,some (.obj []),false⟩

/-- The index after the focused cell, or the end where no cell is focused. -/
def indexBelow (cells : List ICell) (focusedIndex : Int) : Int :=
  if 0 ≤ focusedIndex ∧ focusedIndex < cells.length then focusedIndex + 1 else cells.length

def insertAt (cells : List ICell) (index : Int) (cell : ICell) : List ICell :=
  (sliceAt cells index).1 ++ cell :: (sliceAt cells index).2

/-- The cells without the one at the index: `slice(0,index)` and `slice(index + 1)`. -/
def removeAt (cells : List ICell) (index : Int) : List ICell :=
  (sliceAt cells index).1 ++ (sliceAt cells (index + 1)).2

theorem take_append_drop_sliceAt (cells : List ICell) (index : Int) :
    (sliceAt cells index).1 ++ (sliceAt cells index).2 = cells := by
  rw [sliceAt,List.splitAt_eq]
  exact List.take_append_drop ..

theorem insertAt_perm (cells : List ICell) (index : Int) (cell : ICell) :
    (insertAt cells index cell).Perm (cell :: cells) := by
  have moved := @List.perm_middle _ cell (sliceAt cells index).1 (sliceAt cells index).2
  rwa [take_append_drop_sliceAt] at moved

theorem mem_insertAt {cells : List ICell} {index : Int} {cell item : ICell} :
    item ∈ insertAt cells index cell ↔ item = cell ∨ item ∈ cells :=
  (insertAt_perm cells index cell).mem_iff.trans List.mem_cons

@[simp] theorem length_insertAt (cells : List ICell) (index : Int) (cell : ICell) :
    (insertAt cells index cell).length = cells.length + 1 := (insertAt_perm cells index cell).length_eq

theorem sublist_insertAt (cells : List ICell) (index : Int) (cell : ICell) :
    List.Sublist cells (insertAt cells index cell) := by
  have kept := (List.Sublist.refl (sliceAt cells index).1).append (List.sublist_cons_self cell (sliceAt cells index).2)
  rwa [take_append_drop_sliceAt] at kept

theorem removeAt_eq {cells : List ICell} {index : Int} (nonneg : 0 ≤ index) :
    removeAt cells index = cells.eraseIdx index.toNat := by
  simp only [removeAt,sliceAt,List.splitAt_eq,if_neg (not_lt.mpr nonneg),if_neg (not_lt.mpr (Int.le_add_one nonneg))]
  rw [List.eraseIdx_eq_take_drop_succ,Int.toNat_add nonneg (by omega)]
  rfl

theorem removeAt_subset (cells : List ICell) (index : Int) : removeAt cells index ⊆ cells := by
  simp only [removeAt,sliceAt,List.splitAt_eq]
  exact List.append_subset.mpr ⟨List.take_subset ..,List.drop_subset ..⟩

@[simp] theorem removeAt_nil (index : Int) : removeAt [] index = [] := by simp [removeAt,sliceAt]

def addCellUp (uuid : String) (editor : NotebookEditor) : NotebookEditor :=
  { editor with
    cells := insertAt editor.cells editor.focusedIndex (newCell uuid editor.arrays.length)
    arrays := editor.arrays ++ [[]]
    issued := editor.issued ++ [uuid] }

def addCellDown (uuid : String) (editor : NotebookEditor) : NotebookEditor :=
  { editor with
    cells := insertAt editor.cells (indexBelow editor.cells editor.focusedIndex) (newCell uuid editor.arrays.length)
    arrays := editor.arrays ++ [[]]
    issued := editor.issued ++ [uuid] }

@[simp] theorem length_addCellUp (uuid : String) (editor : NotebookEditor) :
    (addCellUp uuid editor).cells.length = editor.cells.length + 1 := length_insertAt ..

@[simp] theorem length_addCellDown (uuid : String) (editor : NotebookEditor) :
    (addCellDown uuid editor).cells.length = editor.cells.length + 1 := length_insertAt ..

def deleteCell (editor : NotebookEditor) : NotebookEditor :=
  if editor.focusedIndex < 0 ∨ editor.cells.length ≤ editor.focusedIndex then editor
  else { editor with cells := removeAt editor.cells editor.focusedIndex }

def copyCellByIndex (index : Int) (editor : NotebookEditor) : NotebookEditor :=
  { editor with copiedCell := cellAt editor.cells index }

def copyCell (editor : NotebookEditor) : NotebookEditor := copyCellByIndex editor.focusedIndex editor

/-- Unlike `deleteCell`, this does not ask whether a cell is focused. -/
def cutCell (editor : NotebookEditor) : NotebookEditor :=
  { editor with
    cells := removeAt editor.cells editor.focusedIndex
    copiedCell := cellAt editor.cells editor.focusedIndex
    cutCellIndex := some editor.focusedIndex }

/-- The pasted cell has an id of its own, and the outputs of the copied one. -/
def pasteCell (uuid : String) (editor : NotebookEditor) : NotebookEditor :=
  match editor.copiedCell with
  | none => editor
  | some copiedCell =>
    { editor with
      cells := insertAt editor.cells (indexBelow editor.cells editor.focusedIndex) { copiedCell with id := uuid }
      cutCellIndex := none
      issued := editor.issued ++ [uuid] }

def changeCellType (value : String) (editor : NotebookEditor) : NotebookEditor :=
  { editor with
    cells := editor.cells.zipIdx.map (fun c =>
      if (c.2 : Int) = editor.focusedIndex then { c.1 with cellType := value } else c.1) }

/-! ## Cells with an id -/

/-- What becomes of the cells and of the arrays, where `change` is done to each cell with
    the id. -/
def updateCells (cellId : String) (change : ICell → List (List Json) → ICell × List (List Json)) :
    List ICell → List (List Json) → List ICell × List (List Json)
  | [], arrays => ([],arrays)
  | cell :: cells, arrays =>
    let updated := if cell.id = cellId then change cell arrays else (cell,arrays)
    let rest := updateCells cellId change cells updated.2
    (updated.1 :: rest.1,rest.2)

def NotebookEditor.update (editor : NotebookEditor) (cellId : String)
    (change : ICell → List (List Json) → ICell × List (List Json)) : NotebookEditor :=
  { editor with
    cells := (updateCells cellId change editor.cells editor.arrays).1
    arrays := (updateCells cellId change editor.cells editor.arrays).2 }

/-- What is read of each cell alike before and after the change is read of the whole list alike. -/
theorem map_updateCells {Read : Type} {read : ICell → Read} {cellId : String}
    {change : ICell → List (List Json) → ICell × List (List Json)}
    (same : ∀ cell arrays, read (change cell arrays).1 = read cell) (cells : List ICell) (arrays : List (List Json)) :
    (updateCells cellId change cells arrays).1.map read = cells.map read := by
  induction cells generalizing arrays with
  | nil => rfl
  | cons cell cells ih =>
    simp only [updateCells,List.map_cons,ih]
    split_ifs
    · rw [same]
    · rfl

@[simp] theorem length_updateCells (cellId : String) (change : ICell → List (List Json) → ICell × List (List Json))
    (cells : List ICell) (arrays : List (List Json)) :
    (updateCells cellId change cells arrays).1.length = cells.length := by
  induction cells generalizing arrays with
  | nil => rfl
  | cons cell cells ih => simp only [updateCells,List.length_cons,ih]

theorem updateCells_absent {cellId : String} {change : ICell → List (List Json) → ICell × List (List Json)}
    {cells : List ICell} (absent : ∀ cell ∈ cells, cell.id ≠ cellId) (arrays : List (List Json)) :
    updateCells cellId change cells arrays = (cells,arrays) := by
  induction cells with
  | nil => rfl
  | cons cell cells ih =>
    obtain ⟨here,rest⟩ := List.forall_mem_cons.mp absent
    simp only [updateCells,if_neg here,ih rest]

theorem mem_updateCells {cellId : String} {change : ICell → List (List Json) → ICell × List (List Json)}
    {cells : List ICell} {cell : ICell} (member : cell ∈ cells) (other : cell.id ≠ cellId) (arrays : List (List Json)) :
    cell ∈ (updateCells cellId change cells arrays).1 := by
  induction cells generalizing arrays with
  | nil => cases member
  | cons first cells ih =>
    rcases List.mem_cons.mp member with rfl | later
    · simp only [updateCells,if_neg other]
      exact List.mem_cons_self
    · exact List.mem_cons_of_mem _ (ih later _)

/-- Where the ids are distinct, the change is done once. -/
theorem updateCells_distinct {change : ICell → List (List Json) → ICell × List (List Json)} {cells : List ICell}
    (distinct : (cells.map ICell.id).Nodup) {target : ICell} (member : target ∈ cells) (arrays : List (List Json)) :
    updateCells target.id change cells arrays =
      (cells.map (fun cell => if cell.id = target.id then (change target arrays).1 else cell),(change target arrays).2) := by
  induction cells with
  | nil => cases member
  | cons cell cells ih =>
    obtain ⟨fresh,distinct⟩ := List.nodup_cons.mp distinct
    rcases List.mem_cons.mp member with rfl | later
    · have others : ∀ cell ∈ cells, cell.id ≠ target.id := by
        intro other there same
        exact fresh (same ▸ List.mem_map_of_mem there)
      have kept : cells.map (fun cell => if cell.id = target.id then (change target arrays).1 else cell) = cells := by
        refine (List.map_congr_left ?_).trans (List.map_id cells)
        intro other there
        exact if_neg (others other there)
      simp only [updateCells,if_true,updateCells_absent others,List.map_cons,kept]
    · have different : cell.id ≠ target.id := by
        intro same
        exact fresh (same ▸ List.mem_map_of_mem later)
      simp only [updateCells,if_neg different,ih distinct later,List.map_cons]

@[simp] theorem update_focusedIndex (editor : NotebookEditor) (cellId : String)
    (change : ICell → List (List Json) → ICell × List (List Json)) :
    (editor.update cellId change).focusedIndex = editor.focusedIndex := rfl

@[simp] theorem length_update (editor : NotebookEditor) (cellId : String)
    (change : ICell → List (List Json) → ICell × List (List Json)) :
    (editor.update cellId change).cells.length = editor.cells.length := length_updateCells ..

def updateCellSource (value cellId : String) (editor : NotebookEditor) : NotebookEditor :=
  editor.update cellId (fun cell arrays => ({ cell with source := value },arrays))

/-- What is done to the cell that is submitted. -/
def submitted (cell : ICell) (arrays : List (List Json)) : ICell × List (List Json) :=
  ({ cell with executionCount := -1, outputs := some arrays.length },arrays ++ [[]])

/-- The cells once a cell is submitted; what is sent goes to the kernel. -/
def submitCell (cellId : String) (editor : NotebookEditor) : NotebookEditor := editor.update cellId submitted

/-! ## Messages -/

inductive Content where
  | inputRequest
  | inspectReply
  | status
  | executeInput (executionCount : Int)
  | error (ename evalue : String) (traceback : List String)
  | stream (name text : String)
  | executeResult (data : Json)
  | displayData (data : Json)
  /-- A message of another type. -/
  | other
deriving DecidableEq

structure Message where
  /-- `parent_header.msg_id`. -/
  msgId : String
  content : Content
deriving DecidableEq

/-- The length of the code for a colour that the text begins with. -/
def ansiCode : List Char → Option Nat
  | '\u001b' :: '[' :: rest =>
    let digits := rest.takeWhile (fun c => c.isDigit || c = ';')
    if (rest.drop digits.length).head? = some 'm' then some (digits.length + 3) else none
  | _ => none

/-- The text without its codes, the first `skip` characters being part of one. -/
def withoutCodes : Nat → List Char → List Char
  | _, [] => []
  | skip + 1, _ :: rest => withoutCodes skip rest
  | 0, c :: rest =>
    match ansiCode (c :: rest) with
    | some length => withoutCodes (length - 1) rest
    | none => c :: withoutCodes 0 rest

def removeAnsiCodes (str : String) : String := String.ofList (withoutCodes 0 str.toList)

/-- The output that a message adds to its cell. -/
def addedOutput : Content → Option Json
  | .error ename evalue traceback =>
    some (.obj [("output_type",.str "error"),("ename",.str ename),("evalue",.str evalue),
      ("traceback",.arr (traceback.map Json.str))])
  | .stream name text =>
    if name = "stdout" then some (.obj [("text",.str (removeAnsiCodes text)),("output_type",.str "stream")]) else none
  | .executeResult data => some (.obj [("data",data),("output_type",.str "execute_result")])
  | .displayData data => some (.obj [("data",data)])
  | _ => none

/-- The output is pushed to the array of the cell: to a new one where that is empty. A
    cell without an array is not changed: there the update throws. -/
def push (output : Json) (cell : ICell) (arrays : List (List Json)) : ICell × List (List Json) :=
  match cell.outputs with
  | none => (cell,arrays)
  | some array =>
    if arrays[array]?.getD [] = [] then ({ cell with outputs := some arrays.length },arrays ++ [[output]])
    else (cell,arrays.modify array (fun outputs => outputs ++ [output]))

def updateNotebook (message : Message) (editor : NotebookEditor) : NotebookEditor :=
  match message.content with
  | .executeInput executionCount =>
    editor.update message.msgId (fun cell arrays => ({ cell with executionCount := executionCount },arrays))
  | content =>
    match addedOutput content with
    | some output => editor.update message.msgId (push output)
    | none => editor

/-! ## Focus -/

def setFocusedIndex (index : Int) (editor : NotebookEditor) : NotebookEditor := { editor with focusedIndex := index }

def goToPreviousCell (editor : NotebookEditor) : NotebookEditor :=
  { editor with focusedIndex := max (editor.focusedIndex - 1) 0 }

def goToNextCell (editor : NotebookEditor) : NotebookEditor :=
  { editor with focusedIndex := min (editor.focusedIndex + 1) (editor.cells.length - 1) }

structure KeyboardEvent where
  key : String
  ctrlKey : Bool
  shiftKey : Bool
deriving DecidableEq

/-- Down adds a cell where the last one is focused; `uuid` is its id. -/
def arrowDown (addCell : Bool) (uuid : String) (editor : NotebookEditor) : NotebookEditor :=
  let grown := if editor.cells.length = editor.focusedIndex + 1 ∧ addCell then addCellDown uuid editor else editor
  { grown with focusedIndex := min (editor.focusedIndex + 1) (grown.cells.length - 1) }

/-- Where no cell is focused the read of its source throws, and nothing is changed. -/
def enter (event : KeyboardEvent) (editor : NotebookEditor) : NotebookEditor :=
  match cellAt editor.cells editor.focusedIndex with
  | none => editor
  | some cell =>
    if event.ctrlKey then submitCell cell.id editor
    else if event.shiftKey then goToNextCell (submitCell cell.id editor)
    else editor

/-- What `Ctrl` and the key `d` with `Shift` do. -/
def Deletes (event : KeyboardEvent) : Prop := event.key = "d" ∧ event.ctrlKey = true ∧ event.shiftKey = true

instance (event : KeyboardEvent) : Decidable (Deletes event) := inferInstanceAs (Decidable (_ ∧ _))

def handleKeyDown (addCell : Bool) (event : KeyboardEvent) (uuid : String) (editor : NotebookEditor) : NotebookEditor :=
  if event.key = "ArrowDown" then arrowDown addCell uuid editor
  else if event.key = "ArrowUp" then goToPreviousCell editor
  else if Deletes event then deleteCell editor
  else if event.key = "Enter" then enter event editor
  else if event.key = "y" ∧ event.ctrlKey then changeCellType "code" editor
  else if event.key = "m" ∧ event.ctrlKey then changeCellType "markdown" editor
  else editor

/-- Shift and Enter in the editor of a cell. -/
def handleCmdEnter (cell : ICell) (uuid : String) (editor : NotebookEditor) : NotebookEditor :=
  let ran := if cell.cellType = "code" then submitCell cell.id editor else editor
  handleKeyDown true ⟨"ArrowDown",false,false⟩ uuid ran

/-! ## Edits -/

inductive Edit where
  /-- The cell at the index gets the focus, where one is shown. -/
  | focus (index : Int)
  | addCellUp (uuid : String)
  | addCellDown (uuid : String)
  | deleteCell
  | cutCell
  | copyCell
  | copyCellByIndex (index : Int)
  | pasteCell (uuid : String)
  | changeCellType (value : String)
  | updateCellSource (value cellId : String)
  | submitCell (cellId : String)
  | keyDown (addCell : Bool) (event : KeyboardEvent) (uuid : String)
  /-- Shift and Enter in the editor of the cell at the index. -/
  | cmdEnter (index : Int) (uuid : String)
  | goToNextCell
  | goToPreviousCell
  | message (message : Message)

def edit (editor : NotebookEditor) : Edit → NotebookEditor
  | .focus index => if (cellAt editor.cells index).isSome then setFocusedIndex index editor else editor
  | .addCellUp uuid => addCellUp uuid editor
  | .addCellDown uuid => addCellDown uuid editor
  | .deleteCell => deleteCell editor
  | .cutCell => cutCell editor
  | .copyCell => copyCell editor
  | .copyCellByIndex index => copyCellByIndex index editor
  | .pasteCell uuid => pasteCell uuid editor
  | .changeCellType value => changeCellType value editor
  | .updateCellSource value cellId => updateCellSource value cellId editor
  | .submitCell cellId => submitCell cellId editor
  | .keyDown addCell event uuid => handleKeyDown addCell event uuid editor
  | .cmdEnter index uuid =>
    match cellAt editor.cells index with
    | some cell => handleCmdEnter cell uuid editor
    | none => editor
  | .goToNextCell => goToNextCell editor
  | .goToPreviousCell => goToPreviousCell editor
  | .message message => updateNotebook message editor

inductive Event where
  /-- The server answers with a notebook. -/
  | load (cells : Option (List SavedCell)) (uuidv4 : Nat → String)
  | edit (e : Edit)

def step (editor : NotebookEditor) : Event → NotebookEditor × Unit
  | .load cells uuidv4 => (FetchFileData cells uuidv4 editor,())
  | .edit e => (edit editor e,())

end Zasper.NotebookCells
