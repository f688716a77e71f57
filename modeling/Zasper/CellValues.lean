import Zasper.CellOutputs

/-!
# Values of cells

The notebook as its user thinks of it: every cell, and the copied one, has outputs of its
own. The editor keeps the outputs in arrays that it changes in place, and that a copied
cell shares with the cells pasted from it. It follows the notebook of values through a
whole run if and only if no output arrives for a cell that shares the outputs it shows
(`follows_values_iff`).
-/
namespace Zasper.CellValues
open Zasper.JsonValues Zasper.NotebookCells Zasper.Runs
open Zasper.CellEditing hiding Inv Good inv_mounted
open Zasper.CellOutputs hiding Event step Inv Good step_keeps
open Zasper.Editors (sliceAt)
set_option linter.unusedSimpArgs false

structure Cell where
  cellType : String
  id : String
  executionCount : Int
  source : String
  outputs : Option (List Json)
  metadata : Option Json
  reload : Bool

structure Notebook where
  cells : List Cell
  focusedIndex : Int
  copiedCell : Option Cell
  cutCellIndex : Option Int

/-! ## Lists -/

section
variable {Item Other : Type}

def itemAt (items : List Item) (index : Int) : Option Item := if 0 ≤ index then items[index.toNat]? else none

def insertItem (items : List Item) (index : Int) (item : Item) : List Item :=
  (sliceAt items index).1 ++ item :: (sliceAt items index).2

def removeItem (items : List Item) (index : Int) : List Item := (sliceAt items index).1 ++ (sliceAt items (index + 1)).2

/-- The index after the focused one of so many, or the end where none is focused. -/
def placeBelow (length : Nat) (focusedIndex : Int) : Int :=
  if 0 ≤ focusedIndex ∧ focusedIndex < length then focusedIndex + 1 else length

theorem sliceAt_map (f : Item → Other) (items : List Item) (index : Int) :
    sliceAt (items.map f) index = ((sliceAt items index).1.map f,(sliceAt items index).2.map f) := by
  simp only [sliceAt,List.splitAt_eq,List.length_map,List.map_take,List.map_drop]

end

section
variable {Value : Type} (f : ICell → Value) (cells : List ICell) (index : Int)

theorem map_cellAt : (cellAt cells index).map f = itemAt (cells.map f) index := by
  unfold cellAt itemAt
  split_ifs
  · simp only [List.getElem?_map]
  · rfl

theorem map_insertAt (cell : ICell) : (insertAt cells index cell).map f = insertItem (cells.map f) index (f cell) := by
  simp only [insertAt,insertItem,sliceAt_map,List.map_append,List.map_cons]

theorem map_removeAt : (removeAt cells index).map f = removeItem (cells.map f) index := by
  simp only [removeAt,removeItem,sliceAt_map,List.map_append]

end

/-! ## The notebook of values -/

def newValue (id : String) : Cell := ⟨"code",id,0,"",some [],some (.obj []),false⟩

namespace Notebook

def addBelow (cell : Cell) (notebook : Notebook) : Notebook :=
  { notebook with
    cells := insertItem notebook.cells (placeBelow notebook.cells.length notebook.focusedIndex) cell }

def delete (notebook : Notebook) : Notebook :=
  if notebook.focusedIndex < 0 ∨ notebook.cells.length ≤ notebook.focusedIndex then notebook
  else { notebook with cells := removeItem notebook.cells notebook.focusedIndex }

def copy (index : Int) (notebook : Notebook) : Notebook := { notebook with copiedCell := itemAt notebook.cells index }

def paste (uuid : String) (notebook : Notebook) : Notebook :=
  match notebook.copiedCell with
  | none => notebook
  | some copiedCell => { notebook.addBelow { copiedCell with id := uuid } with cutCellIndex := none }

def changeType (value : String) (notebook : Notebook) : Notebook :=
  { notebook with
    cells := notebook.cells.zipIdx.map (fun c =>
      if (c.2 : Int) = notebook.focusedIndex then { c.1 with cellType := value } else c.1) }

/-- `f` is done to the cells with the id. -/
def change (cellId : String) (f : Cell → Cell) (notebook : Notebook) : Notebook :=
  { notebook with cells := notebook.cells.map (fun cell => if cell.id = cellId then f cell else cell) }

end Notebook

def Cell.submitted (cell : Cell) : Cell := { cell with executionCount := -1, outputs := some [] }

/-- The cell once a message has arrived for it. -/
def Cell.receive (content : Content) (cell : Cell) : Cell :=
  match content with
  | .executeInput executionCount => { cell with executionCount := executionCount }
  | content =>
    match addedOutput content with
    | some output => { cell with outputs := cell.outputs.map (fun outputs => outputs ++ [output]) }
    | none => cell

namespace Notebook

def submit (cellId : String) : Notebook → Notebook := change cellId Cell.submitted

def next (notebook : Notebook) : Notebook :=
  { notebook with focusedIndex := min (notebook.focusedIndex + 1) (notebook.cells.length - 1) }

def down (addCell : Bool) (uuid : String) (notebook : Notebook) : Notebook :=
  let grown :=
    if notebook.cells.length = notebook.focusedIndex + 1 ∧ addCell then notebook.addBelow (newValue uuid) else notebook
  { grown with focusedIndex := min (notebook.focusedIndex + 1) (grown.cells.length - 1) }

def enter (event : KeyboardEvent) (notebook : Notebook) : Notebook :=
  match itemAt notebook.cells notebook.focusedIndex with
  | none => notebook
  | some cell =>
    if event.ctrlKey then notebook.submit cell.id
    else if event.shiftKey then (notebook.submit cell.id).next
    else notebook

def keyDown (addCell : Bool) (event : KeyboardEvent) (uuid : String) (notebook : Notebook) : Notebook :=
  if event.key = "ArrowDown" then notebook.down addCell uuid
  else if event.key = "ArrowUp" then { notebook with focusedIndex := max (notebook.focusedIndex - 1) 0 }
  else if Deletes event then notebook.delete
  else if event.key = "Enter" then notebook.enter event
  else if event.key = "y" ∧ event.ctrlKey then notebook.changeType "code"
  else if event.key = "m" ∧ event.ctrlKey then notebook.changeType "markdown"
  else notebook

def edit (notebook : Notebook) : Edit → Notebook
  | .focus index => if (itemAt notebook.cells index).isSome then { notebook with focusedIndex := index } else notebook
  | .addCellUp uuid => { notebook with cells := insertItem notebook.cells notebook.focusedIndex (newValue uuid) }
  | .addCellDown uuid => notebook.addBelow (newValue uuid)
  | .deleteCell => notebook.delete
  | .cutCell =>
    { notebook.copy notebook.focusedIndex with
      cells := removeItem notebook.cells notebook.focusedIndex
      cutCellIndex := some notebook.focusedIndex }
  | .copyCell => notebook.copy notebook.focusedIndex
  | .copyCellByIndex index => notebook.copy index
  | .pasteCell uuid => notebook.paste uuid
  | .changeCellType value => notebook.changeType value
  | .updateCellSource value cellId => notebook.change cellId (fun cell => { cell with source := value })
  | .submitCell cellId => notebook.submit cellId
  | .keyDown addCell event uuid => notebook.keyDown addCell event uuid
  | .cmdEnter index uuid =>
    match itemAt notebook.cells index with
    | some cell => (if cell.cellType = "code" then notebook.submit cell.id else notebook).down true uuid
    | none => notebook
  | .goToNextCell => notebook.next
  | .goToPreviousCell => { notebook with focusedIndex := max (notebook.focusedIndex - 1) 0 }
  | .message message => notebook.change message.msgId (Cell.receive message.content)

def load (cells : Option (List SavedCell)) (uuidv4 : Nat → String) (notebook : Notebook) : Notebook :=
  { notebook with
    cells := (cells.getD [defaultCell]).zipIdx.map (fun c =>
      ⟨c.1.cellType,uuidv4 c.2,c.1.executionCount,c.1.source,c.1.outputs,c.1.metadata,false⟩) }

def step (notebook : Notebook) : Event → Notebook × Unit
  | .load cells uuidv4 => (notebook.load cells uuidv4,())
  | .edit e => (notebook.edit e,())

end Notebook

/-- The cell with the outputs that it shows. -/
def valueOf (arrays : List (List Json)) (cell : ICell) : Cell :=
  ⟨cell.cellType,cell.id,cell.executionCount,cell.source,cell.outputs.map (fun _ => shown arrays cell),cell.metadata,
    cell.reload⟩

def notebookOf (editor : NotebookEditor) : Notebook :=
  ⟨editor.cells.map (valueOf editor.arrays),editor.focusedIndex,editor.copiedCell.map (valueOf editor.arrays),
    editor.cutCellIndex⟩

/-- An output is not added to an array that another cell shows as well, or the copied one. -/
def Unaliased (editor : NotebookEditor) : Event → Prop
  | .edit (.message message) =>
    (addedOutput message.content).isSome → ∀ cell ∈ editor.cells, cell.id = message.msgId →
      shown editor.arrays cell ≠ [] →
        (∀ other ∈ editor.cells, other.id ≠ cell.id → other.outputs ≠ cell.outputs) ∧
        ∀ copied ∈ editor.copiedCell, copied.outputs ≠ cell.outputs
  | _ => True

/-! ## What is seen of single operations -/

section
variable {arrays : List (List Json)}

theorem valueOf_grown {cell : ICell} {more : List (List Json)} (valid : Valid arrays cell) (grown : arrays <+: more) :
    valueOf more cell = valueOf arrays cell := by
  simp only [valueOf,shown_grown valid grown]

/-- What is pushed to a cell is seen after its outputs. -/
theorem push_own (out : Json) {cell : ICell} (valid : Valid arrays cell) :
    valueOf (push out cell arrays).2 (push out cell arrays).1 =
      { valueOf arrays cell with outputs := (valueOf arrays cell).outputs.map (fun outputs => outputs ++ [out]) } := by
  cases here : cell.outputs with
  | none => simp only [push,here,valueOf,Option.map_none]
  | some array =>
    have pushes := (push_shown out here (valid array here)).1
    simp only [push,here] at pushes ⊢
    split_ifs at pushes ⊢ with empty
    · simp only [valueOf,here,pushes,Option.map_some]
    · simp only [valueOf,here,pushes,Option.map_some]

theorem push_self (out : Json) {cell : ICell} (valid : Valid arrays cell) :
    Valid (push out cell arrays).2 (push out cell arrays).1 := by
  cases here : cell.outputs with
  | none =>
    simp only [push,here]
    exact valid
  | some array => exact (push_shown out here (valid array here)).2.2

/-- Another cell is seen as before an output was pushed if and only if it does not share
    the outputs that the output was added to. -/
theorem push_seen_iff (out : Json) {target other : ICell} (valid : Valid arrays other) :
    valueOf (push out target arrays).2 other = valueOf arrays other ↔
      (shown arrays target ≠ [] → other.outputs ≠ target.outputs) := by
  constructor
  · intro same shows shared
    obtain ⟨array,here⟩ : ∃ array, target.outputs = some array := by
      apply Option.ne_none_iff_exists'.mp
      intro none
      exact shows (by simp only [shown,none])
    have inside : array < arrays.length := valid array (shared.trans here)
    have pushes := (push_shown out here inside).1
    have stays : (push out target arrays).1 = target := by
      simp only [shown,here] at shows
      simp only [push,here,if_neg shows]
    rw [stays] at pushes
    have outputs := congrArg Cell.outputs same
    simp only [valueOf,shared,here,Option.map_some,Option.some.injEq,shown_congr shared,pushes] at outputs
    simp at outputs
  · intro unshared
    simp only [valueOf,push_other out valid unshared]

end

section
variable {editor : NotebookEditor}

/-- New arrays leave the notebook that is seen. -/
theorem notebookOf_grown (sound : Sound editor) {more : List (List Json)} (grown : editor.arrays <+: more) :
    notebookOf { editor with arrays := more } = notebookOf editor := by
  have cells : editor.cells.map (valueOf more) = editor.cells.map (valueOf editor.arrays) := by
    apply List.map_congr_left
    intro cell member
    exact valueOf_grown (sound.cells cell member) grown
  have copied : editor.copiedCell.map (valueOf more) = editor.copiedCell.map (valueOf editor.arrays) := by
    apply Option.map_congr
    intro cell here
    exact valueOf_grown (sound.copied cell here) grown
  simp only [notebookOf,cells,copied]

/-- What is done to the cell with an id is seen as a change of its value if and only if it
    changes this value so, and the values of no other cell and not that of the copied one. -/
theorem update_seen_iff (distinct : Distinct editor) {target : ICell} (member : target ∈ editor.cells)
    (action : ICell → List (List Json) → ICell × List (List Json)) (f : Cell → Cell) :
    let after := action target editor.arrays
    notebookOf (editor.update target.id action) = (notebookOf editor).change target.id f ↔
      valueOf after.2 after.1 = f (valueOf editor.arrays target) ∧
      (∀ other ∈ editor.cells, other.id ≠ target.id → valueOf after.2 other = valueOf editor.arrays other) ∧
      ∀ copied ∈ editor.copiedCell, valueOf after.2 copied = valueOf editor.arrays copied := by
  have one : ∀ cell ∈ editor.cells, cell.id = target.id → cell = target :=
    fun cell here same => List.inj_on_of_nodup_map distinct here member same
  simp only [notebookOf,NotebookEditor.update,updateCells_distinct distinct member,Notebook.change,Notebook.mk.injEq,
    List.map_map,List.map_inj_left,Function.comp_apply,true_and,and_true]
  have copied : editor.copiedCell.map (valueOf (action target editor.arrays).2) =
      editor.copiedCell.map (valueOf editor.arrays) ↔
      ∀ copied ∈ editor.copiedCell, valueOf (action target editor.arrays).2 copied = valueOf editor.arrays copied := by
    cases editor.copiedCell with
    | none => simp
    | some cell => simp
  rw [copied,← and_assoc]
  apply and_congr_left
  intro _
  constructor
  · intro seen
    refine ⟨?_,?_⟩
    · simpa [valueOf] using seen target member
    · intro other here different
      simpa [valueOf,different] using seen other here
  · rintro ⟨own,others⟩ cell here
    by_cases same : cell.id = target.id
    · obtain rfl := one cell here same
      simpa [valueOf] using own
    · simpa [valueOf,same] using others cell here same

/-- A change that is a change of no cell. -/
theorem change_id {notebook : Notebook} {cellId : String} {f : Cell → Cell} (same : ∀ cell, f cell = cell) :
    notebook.change cellId f = notebook := by
  have kept : ∀ cell : Cell, (if cell.id = cellId then f cell else cell) = cell := by
    intro cell
    rw [same,ite_self]
  simp only [Notebook.change,kept,List.map_id']

theorem absent_seen {cellId : String} (absent : ∀ cell ∈ editor.cells, cell.id ≠ cellId)
    (action : ICell → List (List Json) → ICell × List (List Json)) (f : Cell → Cell) :
    notebookOf (editor.update cellId action) = (notebookOf editor).change cellId f := by
  simp only [notebookOf,NotebookEditor.update,updateCells_absent absent,Notebook.change,List.map_map,Notebook.mk.injEq,
    and_self,and_true]
  apply List.map_congr_left
  intro cell member
  exact (if_neg (absent cell member)).symm

theorem update_seen (distinct : Distinct editor) {cellId : String}
    {action : ICell → List (List Json) → ICell × List (List Json)} {f : Cell → Cell}
    (own : ∀ target ∈ editor.cells, let after := action target editor.arrays
      valueOf after.2 after.1 = f (valueOf editor.arrays target) ∧
      (∀ other ∈ editor.cells, valueOf after.2 other = valueOf editor.arrays other) ∧
      ∀ copied ∈ editor.copiedCell, valueOf after.2 copied = valueOf editor.arrays copied) :
    notebookOf (editor.update cellId action) = (notebookOf editor).change cellId f := by
  by_cases here : ∃ target ∈ editor.cells, target.id = cellId
  · obtain ⟨target,member,rfl⟩ := here
    obtain ⟨value,others,copied⟩ := own target member
    exact (update_seen_iff distinct member action f).mpr ⟨value,fun other there _ => others other there,copied⟩
  · apply absent_seen
    intro cell member same
    exact here ⟨cell,member,same⟩

theorem submitCell_seen (distinct : Distinct editor) (sound : Sound editor) (cellId : String) :
    notebookOf (submitCell cellId editor) = (notebookOf editor).submit cellId := by
  have grown : editor.arrays <+: editor.arrays ++ [[]] := List.prefix_append ..
  apply update_seen distinct
  intro target _
  refine ⟨?_,?_,?_⟩
  · simp [valueOf,submitted,Cell.submitted,shown]
  · intro other there
    exact valueOf_grown (sound.cells other there) grown
  · intro copied there
    exact valueOf_grown (sound.copied copied there) grown

/-- A change of a cell that leaves its outputs. -/
theorem update_seen_of_eq (distinct : Distinct editor) {cellId : String} {g : ICell → ICell} {f : Cell → Cell}
    (same : ∀ cell, valueOf editor.arrays (g cell) = f (valueOf editor.arrays cell)) :
    notebookOf (editor.update cellId (fun cell arrays => (g cell,arrays))) = (notebookOf editor).change cellId f := by
  apply update_seen distinct
  intro target _
  exact ⟨same target,fun _ _ => rfl,fun _ _ => rfl⟩

/-- Every message is seen as what it does to the value of its cell, but the outputs that
    are added to shared ones. -/
theorem updateNotebook_seen_iff (distinct : Distinct editor) (sound : Sound editor) (message : Message) :
    notebookOf (updateNotebook message editor) =
        (notebookOf editor).change message.msgId (Cell.receive message.content) ↔
      Unaliased editor (.edit (.message message)) := by
  obtain ⟨msgId,content⟩ := message
  cases added : addedOutput content with
  | none =>
    have unaliased : Unaliased editor (.edit (.message ⟨msgId,content⟩)) := by
      simp [Unaliased,added]
    refine iff_of_true ?_ unaliased
    cases content with
    | executeInput executionCount => exact update_seen_of_eq distinct (fun _ => rfl)
    | _ =>
      simp only [updateNotebook,added]
      refine (change_id ?_).symm
      intro cell
      simp only [Cell.receive,added]
  | some out =>
    have updates : updateNotebook ⟨msgId,content⟩ editor = editor.update msgId (push out) := by
      cases content with
      | executeInput => cases added
      | _ => simp only [updateNotebook,added]
    have receives : Cell.receive content =
        fun cell => { cell with outputs := cell.outputs.map (fun outputs => outputs ++ [out]) } := by
      cases content with
      | executeInput => cases added
      | _ => funext cell; simp only [Cell.receive,added]
    rw [updates,receives]
    by_cases here : ∃ target ∈ editor.cells, target.id = msgId
    · obtain ⟨target,member,rfl⟩ := here
      refine (update_seen_iff distinct member _ _).trans ?_
      have own := push_own out (sound.cells target member)
      have one : ∀ cell ∈ editor.cells, cell.id = target.id → cell = target :=
        fun cell there same => List.inj_on_of_nodup_map distinct there member same
      constructor
      · rintro ⟨-,others,copied⟩ _ cell there same shows
        obtain rfl := one cell there same
        refine ⟨?_,?_⟩
        · intro other memberOther different
          exact (push_seen_iff out (sound.cells other memberOther)).mp (others other memberOther different) shows
        · intro copy memberCopy
          exact (push_seen_iff out (sound.copied copy memberCopy)).mp (copied copy memberCopy) shows
      · intro unaliased
        have apart := unaliased (by simp only [added,Option.isSome_some]) target member rfl
        refine ⟨own,?_,?_⟩
        · intro other there different
          exact (push_seen_iff out (sound.cells other there)).mpr (fun shows => (apart shows).1 other there different)
        · intro copied there
          exact (push_seen_iff out (sound.copied copied there)).mpr (fun shows => (apart shows).2 copied there)
    · have absent : ∀ cell ∈ editor.cells, cell.id ≠ msgId := fun cell member same => here ⟨cell,member,same⟩
      refine iff_of_true (absent_seen absent _ _) ?_
      intro _ cell member same
      exact absurd same (absent cell member)

/-! ## What is seen of edits -/

theorem newCell_seen (sound : Sound editor) (uuid : String) (index : Int) :
    notebookOf { editor with
        cells := insertAt editor.cells index (newCell uuid editor.arrays.length)
        arrays := editor.arrays ++ [[]]
        issued := editor.issued ++ [uuid] } =
      { notebookOf editor with cells := insertItem (notebookOf editor).cells index (newValue uuid) } := by
  have new : valueOf (editor.arrays ++ [[]]) (newCell uuid editor.arrays.length) = newValue uuid := by
    simp [valueOf,newCell,newValue,shown]
  have kept := notebookOf_grown sound (List.prefix_append editor.arrays [[]])
  simp only [notebookOf,Notebook.mk.injEq,true_and,and_true] at kept ⊢
  rw [map_insertAt,new,kept.1]
  exact ⟨rfl,kept.2⟩

theorem addCellDown_seen (sound : Sound editor) (uuid : String) :
    notebookOf (addCellDown uuid editor) = (notebookOf editor).addBelow (newValue uuid) := by
  refine (newCell_seen sound uuid _).trans ?_
  simp only [Notebook.addBelow,notebookOf,List.length_map]
  rfl

theorem deleteCell_seen (editor : NotebookEditor) : notebookOf (deleteCell editor) = (notebookOf editor).delete := by
  simp only [deleteCell,Notebook.delete,notebookOf,List.length_map]
  split_ifs
  · rfl
  · simp only [map_removeAt]

theorem copyCellByIndex_seen (index : Int) (editor : NotebookEditor) :
    notebookOf (copyCellByIndex index editor) = (notebookOf editor).copy index := by
  simp only [copyCellByIndex,Notebook.copy,notebookOf,map_cellAt]

theorem pasteCell_seen (uuid : String) (editor : NotebookEditor) :
    notebookOf (pasteCell uuid editor) = (notebookOf editor).paste uuid := by
  cases copied : editor.copiedCell with
  | none => simp only [pasteCell,Notebook.paste,notebookOf,copied,Option.map_none]
  | some cell =>
    simp only [pasteCell,Notebook.paste,Notebook.addBelow,notebookOf,copied,Option.map_some,map_insertAt,List.length_map]
    rfl

theorem changeCellType_seen (value : String) (editor : NotebookEditor) :
    notebookOf (changeCellType value editor) = (notebookOf editor).changeType value := by
  simp only [changeCellType,Notebook.changeType,notebookOf,List.zipIdx_map,List.map_map,Notebook.mk.injEq,and_self,
    and_true]
  apply List.map_congr_left
  rintro ⟨cell,i⟩ _
  show valueOf editor.arrays (if (i : Int) = editor.focusedIndex then { cell with cellType := value } else cell) =
    if (i : Int) = editor.focusedIndex then { valueOf editor.arrays cell with cellType := value }
    else valueOf editor.arrays cell
  split_ifs <;> rfl

theorem goToNextCell_seen (editor : NotebookEditor) : notebookOf (goToNextCell editor) = (notebookOf editor).next := by
  simp only [goToNextCell,Notebook.next,notebookOf,List.length_map]

theorem arrowDown_seen (sound : Sound editor) (addCell : Bool) (uuid : String) :
    notebookOf (arrowDown addCell uuid editor) = (notebookOf editor).down addCell uuid := by
  have length : (notebookOf editor).cells.length = editor.cells.length := List.length_map ..
  have focus : (notebookOf editor).focusedIndex = editor.focusedIndex := rfl
  simp only [arrowDown,Notebook.down,length,focus]
  split_ifs
  · rw [← addCellDown_seen sound uuid]
    simp only [notebookOf,List.length_map]
  · simp only [notebookOf,List.length_map]

theorem enter_seen (distinct : Distinct editor) (sound : Sound editor) (event : KeyboardEvent) :
    notebookOf (enter event editor) = (notebookOf editor).enter event := by
  have focused : itemAt (notebookOf editor).cells (notebookOf editor).focusedIndex =
      (cellAt editor.cells editor.focusedIndex).map (valueOf editor.arrays) := (map_cellAt ..).symm
  unfold enter Notebook.enter
  rw [focused]
  cases cellAt editor.cells editor.focusedIndex with
  | none => rfl
  | some cell =>
    have id : (valueOf editor.arrays cell).id = cell.id := rfl
    simp only [Option.map_some,id,← submitCell_seen distinct sound]
    split_ifs
    · rfl
    · exact goToNextCell_seen _
    · rfl

theorem handleKeyDown_seen (distinct : Distinct editor) (sound : Sound editor) (addCell : Bool) (event : KeyboardEvent)
    (uuid : String) : notebookOf (handleKeyDown addCell event uuid editor) = (notebookOf editor).keyDown addCell event uuid := by
  unfold handleKeyDown Notebook.keyDown
  split_ifs
  · exact arrowDown_seen sound addCell uuid
  · rfl
  · exact deleteCell_seen editor
  · exact enter_seen distinct sound event
  · exact changeCellType_seen _ editor
  · exact changeCellType_seen _ editor
  · rfl

theorem submitCell_sound (distinct : Distinct editor) (sound : Sound editor) (cellId : String) :
    Sound (submitCell cellId editor) := by
  by_cases here : ∃ target ∈ editor.cells, target.id = cellId
  · obtain ⟨target,member,rfl⟩ := here
    have grown : editor.arrays <+: editor.arrays ++ [[]] := List.prefix_append ..
    rw [submitCell,NotebookEditor.update,updateCells_distinct distinct member]
    refine ⟨?_,fun cell copied => (sound.copied cell copied).mono grown⟩
    intro cell there
    obtain ⟨old,oldMember,rfl⟩ := List.mem_map.mp there
    dsimp only [submitted]
    split_ifs
    · intro array new
      obtain rfl := Option.some.inj new
      simp
    · exact (sound.cells old oldMember).mono grown
  · have absent : ∀ cell ∈ editor.cells, cell.id ≠ cellId := fun cell member same => here ⟨cell,member,same⟩
    rw [submitCell,NotebookEditor.update,updateCells_absent absent]
    exact sound

theorem handleCmdEnter_seen (distinct : Distinct editor) (sound : Sound editor) (cell : ICell) (uuid : String) :
    notebookOf (handleCmdEnter cell uuid editor) =
      (if cell.cellType = "code" then (notebookOf editor).submit cell.id else notebookOf editor).down true uuid := by
  simp only [handleCmdEnter,handleKeyDown,↓reduceIte]
  split_ifs
  · rw [arrowDown_seen (submitCell_sound distinct sound cell.id),submitCell_seen distinct sound]
  · exact arrowDown_seen sound true uuid

theorem load_seen (sound : Sound editor) (cells : Option (List SavedCell)) (uuidv4 : Nat → String) :
    notebookOf (FetchFileData cells uuidv4 editor) = (notebookOf editor).load cells uuidv4 := by
  have kept := congrArg Notebook.copiedCell
    (notebookOf_grown sound (List.prefix_append editor.arrays ((cells.getD [defaultCell]).map (fun c => c.outputs.getD []))))
  simp only [notebookOf,FetchFileData,Notebook.load,List.map_map,Notebook.mk.injEq,true_and,and_true] at kept ⊢
  refine ⟨?_,kept⟩
  apply List.map_congr_left
  rintro ⟨saved,i⟩ member
  have place := List.mk_mem_zipIdx_iff_getElem?.mp member
  cases outputs : saved.outputs with
  | none => simp [valueOf,shown,outputs]
  | some list =>
    have new := @List.getElem?_append_right _ editor.arrays
      ((cells.getD [defaultCell]).map (fun c => c.outputs.getD [])) _ (Nat.le_add_right _ i)
    simp [valueOf,shown,outputs,new,place]

/-- An edit is seen as the edit of the notebook of values, unless it adds outputs to shared
    ones. -/
theorem edit_seen_iff (distinct : Distinct editor) (sound : Sound editor) (e : Edit) :
    notebookOf (NotebookCells.edit editor e) = (notebookOf editor).edit e ↔ Unaliased editor (.edit e) := by
  cases e with
  | message message => exact updateNotebook_seen_iff distinct sound message
  | focus index =>
    refine iff_of_true ?_ trivial
    have here : (itemAt (notebookOf editor).cells index).isSome = (cellAt editor.cells index).isSome := by
      rw [notebookOf,← map_cellAt,Option.isSome_map]
    simp only [NotebookCells.edit,Notebook.edit,here]
    split_ifs <;> rfl
  | addCellUp uuid => exact iff_of_true (newCell_seen sound uuid _) trivial
  | addCellDown uuid => exact iff_of_true (addCellDown_seen sound uuid) trivial
  | deleteCell => exact iff_of_true (deleteCell_seen editor) trivial
  | cutCell =>
    refine iff_of_true ?_ trivial
    simp only [NotebookCells.edit,Notebook.edit,cutCell,Notebook.copy,notebookOf,map_cellAt,map_removeAt]
  | copyCell => exact iff_of_true (copyCellByIndex_seen _ editor) trivial
  | copyCellByIndex index => exact iff_of_true (copyCellByIndex_seen index editor) trivial
  | pasteCell uuid => exact iff_of_true (pasteCell_seen uuid editor) trivial
  | changeCellType value => exact iff_of_true (changeCellType_seen value editor) trivial
  | updateCellSource value cellId => exact iff_of_true (update_seen_of_eq distinct (fun _ => rfl)) trivial
  | submitCell cellId => exact iff_of_true (submitCell_seen distinct sound cellId) trivial
  | keyDown addCell event uuid => exact iff_of_true (handleKeyDown_seen distinct sound addCell event uuid) trivial
  | cmdEnter index uuid =>
    refine iff_of_true ?_ trivial
    have here : itemAt (notebookOf editor).cells index = (cellAt editor.cells index).map (valueOf editor.arrays) :=
      (map_cellAt ..).symm
    simp only [NotebookCells.edit,Notebook.edit,here]
    cases cellAt editor.cells index with
    | none => rfl
    | some cell => exact handleCmdEnter_seen distinct sound cell uuid
  | goToNextCell => exact iff_of_true (goToNextCell_seen editor) trivial
  | goToPreviousCell => exact iff_of_true rfl trivial

theorem step_seen_iff (distinct : Distinct editor) (sound : Sound editor) (e : Event) :
    notebookOf (step editor e).1 = ((notebookOf editor).step e).1 ↔ Unaliased editor e := by
  cases e with
  | load cells uuidv4 => exact iff_of_true (load_seen sound cells uuidv4) trivial
  | edit e => exact edit_seen_iff distinct sound e

end

/-! ## Whole runs -/

section
variable {editor : NotebookEditor}

theorem carries_sound {uuids : List String} {after : NotebookEditor} (sound : Sound editor)
    (carries : Carries uuids editor after) : Sound after where
  cells := by
    intro cell member
    rcases carries.cells cell member with ⟨old,there,-,outputs⟩ | ⟨-,valid⟩
    · exact (valid_congr outputs.symm (sound.cells old there)).mono carries.arrays
    · exact valid
  copied := carries.copied

theorem updateNotebook_sound (distinct : Distinct editor) (sound : Sound editor) (message : Message) :
    Sound (updateNotebook message editor) := by
  obtain ⟨msgId,content⟩ := message
  cases added : addedOutput content with
  | none => exact carries_sound sound (quiet_carries sound added)
  | some out =>
    by_cases here : ∃ target ∈ editor.cells, target.id = msgId
    · obtain ⟨target,member,rfl⟩ := here
      rw [updateNotebook_output distinct member added]
      refine ⟨?_,fun cell copied => push_valid out (sound.copied cell copied)⟩
      intro cell there
      obtain ⟨old,oldMember,rfl⟩ := List.mem_map.mp there
      dsimp only
      split_ifs
      · exact push_self out (sound.cells target member)
      · exact push_valid out (sound.cells old oldMember)
    · rw [updateNotebook_absent (fun cell member same => here ⟨cell,member,same⟩)]
      exact sound

theorem load_sound (sound : Sound editor) (cells : Option (List SavedCell)) (uuidv4 : Nat → String) :
    Sound (FetchFileData cells uuidv4 editor) where
  cells := by
    intro cell member array here
    obtain ⟨⟨saved,i⟩,there,rfl⟩ := List.mem_map.mp member
    obtain ⟨_,_,rfl⟩ := Option.map_eq_some_iff.mp here
    have below := List.snd_lt_of_mem_zipIdx there
    simpa [FetchFileData] using below
  copied := by
    intro cell copied
    exact (sound.copied cell copied).mono (List.prefix_append ..)

theorem step_sound (distinct : Distinct editor) (sound : Sound editor) (e : Event) : Sound (step editor e).1 := by
  have submitted : ∀ e, Sound (submittedFirst editor e) := by
    intro e
    unfold submittedFirst
    split
    · exact submitCell_sound distinct sound _
    · exact sound
  rcases e with ⟨cells,uuidv4⟩ | e
  · exact load_sound sound cells uuidv4
  · by_cases message : ∃ message, e = .message message
    · obtain ⟨message,rfl⟩ := message
      exact updateNotebook_sound distinct sound message
    · exact carries_sound (submitted e) (edit_carries sound (submitted e) (fun m same => message ⟨m,same⟩))

end

structure Inv (editor : NotebookEditor) : Prop where
  editing : CellEditing.Inv editor
  sound : Sound editor

theorem inv_mounted : Inv mounted :=
  ⟨CellEditing.inv_mounted,⟨(fun _ member => nomatch member),(fun _ copied => nomatch copied)⟩⟩

theorem step_keeps (editor : NotebookEditor) (e : Event) (inv : Inv editor) (good : CellEditing.Good editor e) :
    Inv (step editor e).1 :=
  ⟨step_inv editor e inv.editing good,step_sound inv.editing.distinct inv.sound e⟩

theorem reached_inv (events : List Event) (good : Meets step CellEditing.Good mounted events) :
    Inv (run step mounted events).1 := by
  apply (@run_keeps _ _ _ step CellEditing.Good Inv (fun _ => True) _ _ inv_mounted _ good).1
  intro editor e inv good
  exact ⟨step_keeps editor e inv good,trivial⟩

/-- What the user sees of the editor, at every time of every run, is the notebook of values
    after the same events if and only if no output is ever added to shared ones. -/
theorem follows_values_iff (events : List Event) (good : Meets step CellEditing.Good mounted events) :
    (states step mounted events).map notebookOf = states Notebook.step (notebookOf mounted) events ↔
      Meets step Unaliased mounted events := by
  refine map_states_iff.trans (@Meets.iff _ _ _ step CellEditing.Good Inv _ _ ?_ step_keeps _ inv_mounted _ good)
  intro editor e inv _
  exact step_seen_iff inv.editing.distinct inv.sound e

/-- A cell is pasted, and the one it was copied from prints. -/
def printed : List Event :=
  [.load none (fun _ => "a"),.edit (.copyCellByIndex 0),.edit (.pasteCell "b"),.edit (.message ⟨"a",.stream "stdout" "1"⟩)]

/-- It is pasted once more, and prints again. -/
def printedAgain : List Event :=
  printed ++ [.edit (.copyCellByIndex 0),.edit (.pasteCell "c"),.edit (.message ⟨"a",.stream "stdout" "2"⟩)]

/-- What is added to outputs that were empty is seen in the one cell, and what is added to
    those that were copied is seen in the pasted cell as well. -/
theorem printed_follows :
    (states step mounted printed).map notebookOf = states Notebook.step (notebookOf mounted) printed ∧
    (states step mounted printedAgain).map notebookOf ≠ states Notebook.step (notebookOf mounted) printedAgain := by
  constructor
  · refine (follows_values_iff printed ?_).mpr ⟨trivial,trivial,trivial,?_,trivial⟩
    · simp [Meets,CellEditing.Good,Unrepeated,FromShown,uuids,printed,step,mounted,FetchFileData,NotebookCells.edit,
        copyCellByIndex,pasteCell,defaultCell]
    · have empty : let editor := (run step mounted (printed.take 3)).1
          ∀ cell ∈ editor.cells, cell.id = "a" → shown editor.arrays cell = [] := by decide
      intro _ cell member same shows
      exact absurd (empty cell member same) shows
  · intro follows
    have shared : let editor := (run step mounted (printedAgain.take 6)).1
        ∃ cell ∈ editor.cells, cell.id = "a" ∧ shown editor.arrays cell ≠ [] ∧
          ∃ other ∈ editor.cells, other.id ≠ cell.id ∧ other.outputs = cell.outputs := by decide
    obtain ⟨cell,member,id,shows,other,there,different,same⟩ := shared
    have unaliased := (follows_values_iff printedAgain (by
      simp [Meets,CellEditing.Good,Unrepeated,FromShown,uuids,printedAgain,printed,step,mounted,FetchFileData,
        NotebookCells.edit,copyCellByIndex,pasteCell,defaultCell]
      decide)).mp follows
    exact (unaliased.2.2.2.2.2.2.1 rfl cell member id shows).1 other there different same

end Zasper.CellValues
