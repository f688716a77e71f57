import Zasper.NotebookCells
import Zasper.Runs

/-!
# The focused cell

A notebook editor through a whole run: notebooks are loaded into it, and it is edited.
The toolbar reads the focused cell whenever the page is drawn. The cell is there as long
as the last of several cells is not removed while it has the focus, and the cells that
come to an empty notebook come under the focus (`focusedExists_iff`).
-/
namespace Zasper.FocusedCell
open Zasper.NotebookCells Zasper.Runs
set_option linter.unusedSimpArgs false

/-- Where there are cells, one has the focus. -/
def FocusedExists (editor : NotebookEditor) : Prop :=
  0 < editor.cells.length → 0 ≤ editor.focusedIndex ∧ editor.focusedIndex < editor.cells.length

/-- What the toolbar reads is there. -/
theorem focusedExists_iff_cellAt (editor : NotebookEditor) :
    FocusedExists editor ↔ (editor.cells ≠ [] → ∃ cell, cellAt editor.cells editor.focusedIndex = some cell) := by
  rw [FocusedExists,← List.length_pos_iff]
  refine imp_congr_right (fun _ => ?_)
  unfold cellAt
  split_ifs with nonneg
  · rw [← Option.isSome_iff_exists,isSome_getElem?]
    omega
  · simp [nonneg]

/-- The last of several cells has the focus. -/
def LastOfSeveral (editor : NotebookEditor) : Prop :=
  editor.focusedIndex + 1 = editor.cells.length ∧ 1 < editor.cells.length

/-- The first cell of an empty notebook would come under the focus. -/
def Ready (editor : NotebookEditor) : Prop := editor.cells = [] → editor.focusedIndex = 0

/-- The event leaves the focus on a cell. -/
def Careful (editor : NotebookEditor) : Event → Prop
  | .load cells _ =>
    let loaded := (cells.getD [defaultCell]).length
    0 < loaded → 0 ≤ editor.focusedIndex ∧ editor.focusedIndex < loaded
  | .edit (.addCellUp _) | .edit (.addCellDown _) => Ready editor
  | .edit (.pasteCell _) => editor.copiedCell.isSome → Ready editor
  | .edit .deleteCell | .edit .cutCell => ¬ LastOfSeveral editor
  | .edit (.keyDown _ event _) => Deletes event → ¬ LastOfSeveral editor
  | .edit _ => True

/-! ## Single operations -/

section
variable {editor : NotebookEditor}

/-- A cell that is added leaves the focus where it was. -/
theorem grown_iff (focused : FocusedExists editor) {grown : NotebookEditor}
    (length : grown.cells.length = editor.cells.length + 1) (focus : grown.focusedIndex = editor.focusedIndex) :
    FocusedExists grown ↔ Ready editor := by
  unfold FocusedExists at focused ⊢
  rw [length,focus,Ready,← List.length_eq_zero_iff]
  omega

/-- What keeps the number of cells and the focus keeps the focused cell. -/
theorem same_focusedExists (focused : FocusedExists editor) {same : NotebookEditor}
    (length : same.cells.length = editor.cells.length) (focus : same.focusedIndex = editor.focusedIndex) :
    FocusedExists same := by
  unfold FocusedExists at focused ⊢
  rwa [length,focus]

theorem deleteCell_iff (focused : FocusedExists editor) :
    FocusedExists (deleteCell editor) ↔ ¬ LastOfSeveral editor := by
  unfold deleteCell LastOfSeveral
  by_cases outside : editor.focusedIndex < 0 ∨ editor.cells.length ≤ editor.focusedIndex
  · rw [if_pos outside]
    refine iff_of_true focused ?_
    omega
  · rw [if_neg outside,FocusedExists,removeAt_eq (by omega),List.length_eraseIdx]
    split_ifs <;> dsimp only <;> omega

theorem cutCell_iff (focused : FocusedExists editor) : FocusedExists (cutCell editor) ↔ ¬ LastOfSeveral editor := by
  by_cases empty : editor.cells = []
  · simp [FocusedExists,LastOfSeveral,cutCell,empty]
  · obtain ⟨nonneg,below⟩ := focused (List.length_pos_iff.mpr empty)
    simp only [FocusedExists,LastOfSeveral,cutCell]
    rw [removeAt_eq nonneg,List.length_eraseIdx,if_pos (by omega)]
    omega

theorem goToPreviousCell_focusedExists (focused : FocusedExists editor) : FocusedExists (goToPreviousCell editor) := by
  simp only [FocusedExists,goToPreviousCell] at focused ⊢
  omega

theorem goToNextCell_focusedExists (focused : FocusedExists editor) : FocusedExists (goToNextCell editor) := by
  simp only [FocusedExists,goToNextCell] at focused ⊢
  omega

theorem submitCell_focusedExists (focused : FocusedExists editor) (cellId : String) :
    FocusedExists (submitCell cellId editor) := same_focusedExists focused (length_update ..) rfl

theorem changeCellType_focusedExists (focused : FocusedExists editor) (value : String) :
    FocusedExists (changeCellType value editor) :=
  same_focusedExists focused (by simp [changeCellType]) rfl

/-- Down keeps the focus on a cell, also where it adds one. -/
theorem arrowDown_focusedExists (focused : FocusedExists editor) (addCell : Bool) (uuid : String) :
    FocusedExists (arrowDown addCell uuid editor) := by
  unfold arrowDown
  split_ifs with last
  · obtain ⟨last,-⟩ := last
    simp only [FocusedExists,length_addCellDown] at focused ⊢
    omega
  · simp only [FocusedExists] at focused ⊢
    omega

theorem enter_focusedExists (focused : FocusedExists editor) (event : KeyboardEvent) :
    FocusedExists (enter event editor) := by
  unfold enter
  split
  · exact focused
  · split_ifs
    · exact submitCell_focusedExists focused _
    · exact goToNextCell_focusedExists (submitCell_focusedExists focused _)
    · exact focused

theorem handleKeyDown_iff (focused : FocusedExists editor) (addCell : Bool) (event : KeyboardEvent) (uuid : String) :
    FocusedExists (handleKeyDown addCell event uuid editor) ↔ (Deletes event → ¬ LastOfSeveral editor) := by
  unfold handleKeyDown
  by_cases deletes : Deletes event
  · have key : event.key = "d" := deletes.1
    simp only [key,String.reduceEq,↓reduceIte,if_pos deletes,deletes,true_implies]
    exact deleteCell_iff focused
  · simp only [deletes,↓reduceIte,false_implies,iff_true]
    split_ifs
    · exact arrowDown_focusedExists focused addCell uuid
    · exact goToPreviousCell_focusedExists focused
    · exact enter_focusedExists focused event
    · exact changeCellType_focusedExists focused _
    · exact changeCellType_focusedExists focused _
    · exact focused

theorem handleCmdEnter_focusedExists (focused : FocusedExists editor) (cell : ICell) (uuid : String) :
    FocusedExists (handleCmdEnter cell uuid editor) := by
  unfold handleCmdEnter
  have ran : FocusedExists (if cell.cellType = "code" then submitCell cell.id editor else editor) := by
    split_ifs
    · exact submitCell_focusedExists focused _
    · exact focused
  refine (handleKeyDown_iff ran true _ uuid).mpr ?_
  intro deletes
  cases deletes.2.1

theorem updateNotebook_focusedExists (focused : FocusedExists editor) (message : Message) :
    FocusedExists (updateNotebook message editor) := by
  unfold updateNotebook
  split
  · exact same_focusedExists focused (length_update ..) rfl
  · split
    · exact same_focusedExists focused (length_update ..) rfl
    · exact focused

theorem pasteCell_iff (focused : FocusedExists editor) (uuid : String) :
    FocusedExists (pasteCell uuid editor) ↔ (editor.copiedCell.isSome → Ready editor) := by
  unfold pasteCell
  cases copied : editor.copiedCell with
  | none => simpa using focused
  | some cell =>
    simp only [Option.isSome_some,true_implies]
    apply grown_iff focused
    · exact length_insertAt ..
    · rfl

end

/-! ## Runs -/

/-- Where a cell has the focus, one has it after the event if and only if that is careful. -/
theorem step_iff (editor : NotebookEditor) (e : Event) (focused : FocusedExists editor) :
    FocusedExists (step editor e).1 ↔ Careful editor e := by
  cases e with
  | load cells uuidv4 => simp [step,FocusedExists,FetchFileData,Careful]
  | edit e =>
    cases e with
    | focus index =>
      refine iff_of_true ?_ trivial
      simp only [step,edit]
      split_ifs with shown
      · rw [focusedExists_iff_cellAt]
        intro _
        exact Option.isSome_iff_exists.mp shown
      · exact focused
    | addCellUp uuid => exact grown_iff focused (length_addCellUp uuid editor) rfl
    | addCellDown uuid => exact grown_iff focused (length_addCellDown uuid editor) rfl
    | deleteCell => exact deleteCell_iff focused
    | cutCell => exact cutCell_iff focused
    | copyCell => exact iff_of_true focused trivial
    | copyCellByIndex index => exact iff_of_true focused trivial
    | pasteCell uuid => exact pasteCell_iff focused uuid
    | changeCellType value => exact iff_of_true (changeCellType_focusedExists focused value) trivial
    | updateCellSource value cellId => exact iff_of_true (same_focusedExists focused (length_update ..) rfl) trivial
    | submitCell cellId => exact iff_of_true (submitCell_focusedExists focused cellId) trivial
    | keyDown addCell event uuid => exact handleKeyDown_iff focused addCell event uuid
    | cmdEnter index uuid =>
      refine iff_of_true ?_ trivial
      simp only [step,edit]
      split
      · exact handleCmdEnter_focusedExists focused _ uuid
      · exact focused
    | goToNextCell => exact iff_of_true (goToNextCell_focusedExists focused) trivial
    | goToPreviousCell => exact iff_of_true (goToPreviousCell_focusedExists focused) trivial
    | message message => exact iff_of_true (updateNotebook_focusedExists focused message) trivial

theorem mounted_focusedExists : FocusedExists mounted := by
  intro some
  cases some

/-- From the moment the editor is mounted the focused cell exists at any time if and only
    if every event is careful. -/
theorem focusedExists_iff (events : List Event) :
    Always step FocusedExists mounted events ↔ Meets step Careful mounted events := by
  apply always_iff_meets (fun _ focused => focused)
  · intro editor e focused careful
    exact (step_iff editor e focused).mpr careful
  · intro editor e focused next
    exact (step_iff editor e focused).mp next
  · exact mounted_focusedExists

/-- A notebook of two cells is loaded, the second gets the focus and is deleted. -/
theorem lastDeleted_noFocus : ¬ FocusedExists (run step mounted
    [.load (some [defaultCell,defaultCell]) (fun i => if i = 0 then "a" else "b"),.edit (.focus 1),.edit .deleteCell]).1 := by
  intro focused
  exact absurd (focused (by decide)).2 (by decide)

end Zasper.FocusedCell
