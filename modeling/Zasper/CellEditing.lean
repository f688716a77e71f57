import Zasper.NotebookCells
import Zasper.Runs

/-!
# Editing cells

What a run of edits leaves of the cells of a notebook that was loaded: their ids stay
distinct, a cell goes only when it is deleted or cut, and its source changes only when
it is typed (`edits_conserve`). An index below zero would have `cutCell` repeat cells;
none is reached, since the focus moves only where a cell is shown.
-/
namespace Zasper.CellEditing
open Zasper.NotebookCells Zasper.Runs
set_option linter.unusedSimpArgs false

/-- What stays of a cell while it is not typed in. -/
def identity (cell : ICell) : String × String := (cell.id,cell.source)

/-- Every cell keeps its id, its source and its place among the others. -/
def Keeps (before after : NotebookEditor) : Prop :=
  List.Sublist (before.cells.map identity) (after.cells.map identity)

/-- The focused cell is removed where there is one, and nothing otherwise. -/
def RemovesFocused (before after : NotebookEditor) : Prop :=
  after.cells =
    if 0 ≤ before.focusedIndex ∧ before.focusedIndex < before.cells.length then
      before.cells.eraseIdx before.focusedIndex.toNat
    else before.cells

/-- What an edit may do to the cells. -/
def Conserves (before after : NotebookEditor) : Edit → Prop
  | .deleteCell | .cutCell => RemovesFocused before after
  | .keyDown _ event _ => if Deletes event then RemovesFocused before after else Keeps before after
  | .updateCellSource value cellId =>
    after.cells.map identity = before.cells.map (fun cell => (cell.id,if cell.id = cellId then value else cell.source))
  | _ => Keeps before after

def Distinct (editor : NotebookEditor) : Prop := (editor.cells.map ICell.id).Nodup

/-- What `uuidv4` returns to the event. -/
def uuids : Event → List String
  | .load cells uuidv4 => (List.range (cells.getD [defaultCell]).length).map uuidv4
  | .edit (.addCellUp uuid) | .edit (.addCellDown uuid) | .edit (.pasteCell uuid) | .edit (.keyDown _ _ uuid)
  | .edit (.cmdEnter _ uuid) => [uuid]
  | .edit _ => []

/-- `uuidv4` repeats nothing that it has returned before. -/
def Unrepeated (editor : NotebookEditor) (e : Event) : Prop :=
  (uuids e).Nodup ∧ ∀ uuid ∈ uuids e, uuid ∉ editor.issued

/-- The keys and the buttons that move the focus belong to cells that are shown. -/
def FromShown (editor : NotebookEditor) : Event → Prop
  | .edit (.keyDown _ _ _) | .edit .goToNextCell | .edit .goToPreviousCell => editor.cells ≠ []
  | _ => True

/-- What is asked of the events of a run. -/
def Good (editor : NotebookEditor) (e : Event) : Prop := Unrepeated editor e ∧ FromShown editor e

structure Inv (editor : NotebookEditor) : Prop where
  nonneg : 0 ≤ editor.focusedIndex
  known : ∀ cell ∈ editor.cells, cell.id ∈ editor.issued
  distinct : Distinct editor

/-! ## What an edit can do -/

/-- Nothing is added and nothing is removed. -/
structure Same (before after : NotebookEditor) : Prop where
  cells : after.cells.map identity = before.cells.map identity
  issued : after.issued = before.issued

/-- A cell with the id is added. -/
structure Adds (uuid : String) (before after : NotebookEditor) : Prop where
  keeps : Keeps before after
  ids : (after.cells.map ICell.id).Perm (uuid :: before.cells.map ICell.id)
  issued : after.issued = before.issued ++ [uuid]

section
variable {before after : NotebookEditor} {uuid : String}

theorem Same.ids (same : Same before after) : after.cells.map ICell.id = before.cells.map ICell.id := by
  have firsts := congrArg (List.map Prod.fst) same.cells
  rw [List.map_map,List.map_map] at firsts
  exact firsts

theorem Same.keeps (same : Same before after) : Keeps before after := by
  rw [Keeps,same.cells]

theorem Same.refl (editor : NotebookEditor) : Same editor editor := ⟨rfl,rfl⟩

theorem Same.trans {last : NotebookEditor} (first : Same before after) (second : Same after last) : Same before last :=
  ⟨second.cells.trans first.cells,second.issued.trans first.issued⟩

theorem Same.adds {last : NotebookEditor} (first : Same before after) (second : Adds uuid after last) :
    Adds uuid before last where
  keeps := by
    have kept := second.keeps
    rwa [Keeps,first.cells] at kept
  ids := by
    have ids := second.ids
    rwa [first.ids] at ids
  issued := by rw [second.issued,first.issued]

theorem Same.inv (same : Same before after) (inv : Inv before) (nonneg : 0 ≤ after.focusedIndex) : Inv after where
  nonneg := nonneg
  known := by
    intro cell member
    obtain ⟨old,there,id⟩ := List.mem_map.mp (same.ids ▸ List.mem_map_of_mem member)
    rw [same.issued,← id]
    exact inv.known old there
  distinct := by
    rw [Distinct,same.ids]
    exact inv.distinct

theorem Adds.inv (adds : Adds uuid before after) (inv : Inv before) (new : uuid ∉ before.issued)
    (nonneg : 0 ≤ after.focusedIndex) : Inv after where
  nonneg := nonneg
  known := by
    intro cell member
    rw [adds.issued]
    rcases List.mem_cons.mp (adds.ids.mem_iff.mp (List.mem_map_of_mem member)) with added | kept
    · rw [added]
      exact List.mem_append_right _ (List.mem_singleton_self uuid)
    · obtain ⟨old,there,id⟩ := List.mem_map.mp kept
      rw [← id]
      exact List.mem_append_left _ (inv.known old there)
  distinct := by
    rw [Distinct,adds.ids.nodup_iff,List.nodup_cons]
    refine ⟨?_,inv.distinct⟩
    intro member
    obtain ⟨old,there,id⟩ := List.mem_map.mp member
    exact new (id ▸ inv.known old there)

theorem RemovesFocused.inv (removes : RemovesFocused before after) (inv : Inv before)
    (issued : after.issued = before.issued) (focus : after.focusedIndex = before.focusedIndex) : Inv after := by
  have sub : List.Sublist after.cells before.cells := by
    rw [removes]
    split_ifs
    · exact List.eraseIdx_sublist ..
    · exact List.Sublist.refl _
  refine ⟨focus ▸ inv.nonneg,?_,?_⟩
  · intro cell member
    rw [issued]
    exact inv.known cell (sub.subset member)
  · exact inv.distinct.sublist (sub.map ICell.id)

end

/-! ## Single operations -/

section
variable {editor : NotebookEditor}

theorem insertAt_adds {cell : ICell} {index : Int} {after : NotebookEditor}
    (cells : after.cells = insertAt editor.cells index cell) (issued : after.issued = editor.issued ++ [cell.id]) :
    Adds cell.id editor after where
  keeps := by
    rw [Keeps,cells]
    exact (sublist_insertAt ..).map identity
  ids := by
    rw [cells]
    exact (insertAt_perm ..).map ICell.id
  issued := issued

theorem addCellUp_adds (uuid : String) (editor : NotebookEditor) : Adds uuid editor (addCellUp uuid editor) :=
  @insertAt_adds editor (newCell uuid editor.arrays.length) _ _ rfl rfl

theorem addCellDown_adds (uuid : String) (editor : NotebookEditor) : Adds uuid editor (addCellDown uuid editor) :=
  @insertAt_adds editor (newCell uuid editor.arrays.length) _ _ rfl rfl

/-- A change that keeps id and source of every cell keeps those of the whole list. -/
theorem update_same {cellId : String} {change : ICell → List (List JsonValues.Json) → ICell × List (List JsonValues.Json)}
    (same : ∀ cell arrays, identity (change cell arrays).1 = identity cell) : Same editor (editor.update cellId change) :=
  ⟨map_updateCells same ..,rfl⟩

theorem submitCell_same (cellId : String) (editor : NotebookEditor) : Same editor (submitCell cellId editor) :=
  update_same (fun _ _ => rfl)

theorem push_identity (output : JsonValues.Json) (cell : ICell) (arrays : List (List JsonValues.Json)) :
    identity (push output cell arrays).1 = identity cell := by
  unfold push
  split
  · rfl
  · split_ifs <;> rfl

theorem updateNotebook_same (message : Message) (editor : NotebookEditor) :
    Same editor (updateNotebook message editor) := by
  unfold updateNotebook
  split
  · exact update_same (fun _ _ => rfl)
  · split
    · exact update_same (push_identity _)
    · exact Same.refl editor

theorem updateNotebook_focusedIndex (message : Message) (editor : NotebookEditor) :
    (updateNotebook message editor).focusedIndex = editor.focusedIndex := by
  unfold updateNotebook
  split
  · rfl
  · split <;> rfl

theorem updateNotebook_inv {editor : NotebookEditor} (inv : Inv editor) (message : Message) :
    Inv (updateNotebook message editor) := by
  apply (updateNotebook_same message editor).inv inv
  rw [updateNotebook_focusedIndex]
  exact inv.nonneg

theorem changeCellType_same (value : String) (editor : NotebookEditor) : Same editor (changeCellType value editor) := by
  refine ⟨?_,rfl⟩
  have read : ∀ c ∈ editor.cells.zipIdx,
      identity (if (c.2 : Int) = editor.focusedIndex then { c.1 with cellType := value } else c.1) =
        (identity ∘ Prod.fst) c := by
    intro c _
    split_ifs <;> rfl
  rw [changeCellType,List.map_map,← List.zipIdx_map_fst 0 editor.cells,List.map_map,List.zipIdx_map_fst]
  exact List.map_congr_left read

theorem deleteCell_removes (editor : NotebookEditor) : RemovesFocused editor (deleteCell editor) := by
  unfold deleteCell RemovesFocused
  by_cases outside : editor.focusedIndex < 0 ∨ editor.cells.length ≤ editor.focusedIndex
  · rw [if_pos outside,if_neg (by omega)]
  · rw [if_neg outside,if_pos (by omega)]
    exact removeAt_eq (by omega)

theorem deleteCell_issued (editor : NotebookEditor) : (deleteCell editor).issued = editor.issued := by
  unfold deleteCell
  split_ifs <;> rfl

theorem deleteCell_focusedIndex (editor : NotebookEditor) : (deleteCell editor).focusedIndex = editor.focusedIndex := by
  unfold deleteCell
  split_ifs <;> rfl

theorem cutCell_removes (nonneg : 0 ≤ editor.focusedIndex) : RemovesFocused editor (cutCell editor) := by
  simp only [cutCell,RemovesFocused]
  rw [removeAt_eq nonneg]
  split_ifs with inside
  · rfl
  · exact List.eraseIdx_of_length_le (by omega)

theorem goToNextCell_nonneg (nonneg : 0 ≤ editor.focusedIndex) (shown : editor.cells ≠ []) :
    0 ≤ (goToNextCell editor).focusedIndex := by
  have some := List.length_pos_iff.mpr shown
  simp only [goToNextCell]
  omega

theorem arrowDown_effect (addCell : Bool) (uuid : String) (editor : NotebookEditor) :
    Same editor (arrowDown addCell uuid editor) ∨ Adds uuid editor (arrowDown addCell uuid editor) := by
  unfold arrowDown
  split_ifs
  · have adds := addCellDown_adds uuid editor
    exact .inr ⟨adds.keeps,adds.ids,adds.issued⟩
  · exact .inl ⟨rfl,rfl⟩

theorem arrowDown_nonneg (nonneg : 0 ≤ editor.focusedIndex) (shown : editor.cells ≠ []) (addCell : Bool) (uuid : String) :
    0 ≤ (arrowDown addCell uuid editor).focusedIndex := by
  have some := List.length_pos_iff.mpr shown
  unfold arrowDown
  split_ifs
  · simp only [length_addCellDown]
    omega
  · dsimp only
    omega

theorem enter_same (event : KeyboardEvent) (editor : NotebookEditor) : Same editor (enter event editor) := by
  unfold enter
  split
  · exact Same.refl editor
  · split_ifs
    · exact submitCell_same ..
    · exact (submitCell_same ..).trans ⟨rfl,rfl⟩
    · exact Same.refl editor

theorem enter_nonneg (nonneg : 0 ≤ editor.focusedIndex) (shown : editor.cells ≠ []) (event : KeyboardEvent) :
    0 ≤ (enter event editor).focusedIndex := by
  unfold enter
  split
  · exact nonneg
  · split_ifs
    · exact nonneg
    · have some := List.length_pos_iff.mpr shown
      apply goToNextCell_nonneg
      · exact nonneg
      · rw [← List.length_pos_iff,submitCell,length_update]
        exact some
    · exact nonneg

/-- A key other than the one that deletes keeps the cells, and may add one. -/
theorem handleKeyDown_effect {addCell : Bool} {event : KeyboardEvent} {uuid : String} (keeps : ¬ Deletes event) :
    Same editor (handleKeyDown addCell event uuid editor) ∨ Adds uuid editor (handleKeyDown addCell event uuid editor) := by
  unfold handleKeyDown
  simp only [keeps,↓reduceIte]
  split_ifs
  · exact arrowDown_effect addCell uuid editor
  · exact .inl ⟨rfl,rfl⟩
  · exact .inl (enter_same event editor)
  · exact .inl (changeCellType_same _ editor)
  · exact .inl (changeCellType_same _ editor)
  · exact .inl (Same.refl editor)

theorem handleKeyDown_nonneg (nonneg : 0 ≤ editor.focusedIndex) (shown : editor.cells ≠ []) (addCell : Bool)
    (event : KeyboardEvent) (uuid : String) : 0 ≤ (handleKeyDown addCell event uuid editor).focusedIndex := by
  unfold handleKeyDown
  split_ifs
  · exact arrowDown_nonneg nonneg shown addCell uuid
  · exact le_max_right _ _
  · rw [deleteCell_focusedIndex]
    exact nonneg
  · exact enter_nonneg nonneg shown event
  · exact nonneg
  · exact nonneg
  · exact nonneg

end

/-! ## Runs -/

theorem load_inv {editor : NotebookEditor} (inv : Inv editor) {cells : Option (List SavedCell)} {uuidv4 : Nat → String}
    (unrepeated : (uuids (.load cells uuidv4)).Nodup) : Inv (FetchFileData cells uuidv4 editor) := by
  have ids : (FetchFileData cells uuidv4 editor).cells.map ICell.id = uuids (.load cells uuidv4) := by
    simp only [FetchFileData,uuids,List.map_map]
    rw [List.range_eq_range',← List.zipIdx_map_snd 0,List.map_map]
    rfl
  refine ⟨inv.nonneg,?_,?_⟩
  · intro cell member
    have there : cell.id ∈ (FetchFileData cells uuidv4 editor).cells.map ICell.id := List.mem_map_of_mem member
    rw [ids] at there
    exact List.mem_append_right _ there
  · rw [Distinct,ids]
    exact unrepeated

/-- What adds at most a new cell conserves the others. -/
theorem effect_keeps {editor after : NotebookEditor} {uuid : String} (inv : Inv editor) (new : uuid ∉ editor.issued)
    (nonneg : 0 ≤ after.focusedIndex) (effect : Same editor after ∨ Adds uuid editor after) :
    Keeps editor after ∧ Inv after := by
  rcases effect with same | adds
  · exact ⟨same.keeps,same.inv inv nonneg⟩
  · exact ⟨adds.keeps,adds.inv inv new nonneg⟩

theorem updateCells_source (value cellId : String) (cells : List ICell) (arrays : List (List JsonValues.Json)) :
    (updateCells cellId (fun cell arrays => ({ cell with source := value },arrays)) cells arrays).1.map identity =
      cells.map (fun cell => (cell.id,if cell.id = cellId then value else cell.source)) := by
  induction cells generalizing arrays with
  | nil => rfl
  | cons cell cells ih =>
    simp only [updateCells,List.map_cons,ih]
    split_ifs <;> rfl

theorem updateCellSource_inv {editor : NotebookEditor} (inv : Inv editor) (value cellId : String) :
    Inv (updateCellSource value cellId editor) := by
  have ids : (updateCellSource value cellId editor).cells.map ICell.id = editor.cells.map ICell.id :=
    map_updateCells (fun _ _ => rfl) ..
  refine ⟨inv.nonneg,?_,?_⟩
  · intro cell member
    obtain ⟨old,there,id⟩ := List.mem_map.mp (ids ▸ List.mem_map_of_mem member)
    exact id ▸ inv.known old there
  · rw [Distinct,ids]
    exact inv.distinct

theorem cmdEnter_keeps {editor : NotebookEditor} (inv : Inv editor) {cell : ICell} (shown : editor.cells ≠ [])
    {uuid : String} (new : uuid ∉ editor.issued) :
    Keeps editor (handleCmdEnter cell uuid editor) ∧ Inv (handleCmdEnter cell uuid editor) := by
  have ran : Same editor (if cell.cellType = "code" then submitCell cell.id editor else editor) := by
    split_ifs
    · exact submitCell_same ..
    · exact Same.refl editor
  have focus : (if cell.cellType = "code" then submitCell cell.id editor else editor).focusedIndex =
      editor.focusedIndex := by
    split_ifs <;> rfl
  have stillShown : (if cell.cellType = "code" then submitCell cell.id editor else editor).cells ≠ [] := by
    intro gone
    have none := ran.cells
    rw [gone] at none
    exact shown (List.map_eq_nil_iff.mp none.symm)
  apply effect_keeps inv new
  · apply handleKeyDown_nonneg _ stillShown
    rw [focus]
    exact inv.nonneg
  · apply Or.imp ran.trans ran.adds
    apply handleKeyDown_effect
    intro deletes
    cases deletes.2.1

theorem edit_conserves {editor : NotebookEditor} (inv : Inv editor) {e : Edit} (good : Good editor (.edit e)) :
    Conserves editor (edit editor e) e ∧ Inv (edit editor e) := by
  obtain ⟨⟨-,new⟩,shown⟩ := good
  cases e with
  | focus index =>
    dsimp only [edit,Conserves]
    split_ifs with here
    · have same : Same editor (setFocusedIndex index editor) := ⟨rfl,rfl⟩
      refine ⟨same.keeps,same.inv inv ?_⟩
      show 0 ≤ index
      by_contra negative
      simp [cellAt,negative] at here
    · exact ⟨(Same.refl editor).keeps,inv⟩
  | addCellUp uuid =>
    have adds := addCellUp_adds uuid editor
    exact ⟨adds.keeps,adds.inv inv (new uuid (List.mem_singleton_self _)) inv.nonneg⟩
  | addCellDown uuid =>
    have adds := addCellDown_adds uuid editor
    exact ⟨adds.keeps,adds.inv inv (new uuid (List.mem_singleton_self _)) inv.nonneg⟩
  | deleteCell =>
    have removes := deleteCell_removes editor
    exact ⟨removes,removes.inv inv (deleteCell_issued editor) (deleteCell_focusedIndex editor)⟩
  | cutCell =>
    have removes := cutCell_removes inv.nonneg
    exact ⟨removes,removes.inv inv rfl rfl⟩
  | copyCell =>
    have same : Same editor (copyCell editor) := ⟨rfl,rfl⟩
    exact ⟨same.keeps,same.inv inv inv.nonneg⟩
  | copyCellByIndex index =>
    have same : Same editor (copyCellByIndex index editor) := ⟨rfl,rfl⟩
    exact ⟨same.keeps,same.inv inv inv.nonneg⟩
  | pasteCell uuid =>
    dsimp only [edit,Conserves,pasteCell]
    cases copied : editor.copiedCell with
    | none => exact ⟨(Same.refl editor).keeps,inv⟩
    | some cell =>
      apply effect_keeps inv (new uuid (List.mem_singleton_self _))
      · exact inv.nonneg
      · exact .inr (@insertAt_adds editor { cell with id := uuid } _ _ rfl rfl)
  | changeCellType value =>
    have same := changeCellType_same value editor
    exact ⟨same.keeps,same.inv inv inv.nonneg⟩
  | updateCellSource value cellId => exact ⟨updateCells_source ..,updateCellSource_inv inv value cellId⟩
  | submitCell cellId =>
    have same := submitCell_same cellId editor
    exact ⟨same.keeps,same.inv inv inv.nonneg⟩
  | keyDown addCell event uuid =>
    dsimp only [edit,Conserves]
    split_ifs with deletes
    · have deleted : handleKeyDown addCell event uuid editor = deleteCell editor := by
        simp [handleKeyDown,deletes,deletes.1]
      rw [deleted]
      have removes := deleteCell_removes editor
      exact ⟨removes,removes.inv inv (deleteCell_issued editor) (deleteCell_focusedIndex editor)⟩
    · exact effect_keeps inv (new uuid (List.mem_singleton_self _))
        (handleKeyDown_nonneg inv.nonneg shown addCell event uuid) (handleKeyDown_effect deletes)
  | cmdEnter index uuid =>
    dsimp only [edit,Conserves]
    cases here : cellAt editor.cells index with
    | none => exact ⟨(Same.refl editor).keeps,inv⟩
    | some cell =>
      apply cmdEnter_keeps inv _ (new uuid (List.mem_singleton_self _))
      intro empty
      simp [cellAt,empty] at here
  | goToNextCell =>
    have same : Same editor (goToNextCell editor) := ⟨rfl,rfl⟩
    exact ⟨same.keeps,same.inv inv (goToNextCell_nonneg inv.nonneg shown)⟩
  | goToPreviousCell =>
    have same : Same editor (goToPreviousCell editor) := ⟨rfl,rfl⟩
    exact ⟨same.keeps,same.inv inv (le_max_right _ _)⟩
  | message message => exact ⟨(updateNotebook_same message editor).keeps,updateNotebook_inv inv message⟩

theorem step_inv (editor : NotebookEditor) (e : Event) (inv : Inv editor) (good : Good editor e) :
    Inv (step editor e).1 := by
  cases e with
  | load cells uuidv4 => exact load_inv inv good.1.1
  | edit e => exact (edit_conserves inv good).2

theorem inv_mounted : Inv mounted := by
  refine ⟨le_refl 0,?_,List.nodup_nil⟩
  intro cell member
  cases member

/-- After any run of loads and edits the ids of the cells are distinct, and the next edit
    conserves the cells. -/
theorem edits_conserve (events : List Event) (good : Meets step Good mounted events) :
    let editor := (run step mounted events).1
    Distinct editor ∧ ∀ e, Good editor (.edit e) → Conserves editor (edit editor e) e := by
  have inv : Inv (run step mounted events).1 := by
    apply (@run_keeps _ _ _ step Good Inv (fun _ => True) _ _ inv_mounted _ good).1
    intro editor e inv good
    exact ⟨step_inv editor e inv good,trivial⟩
  refine ⟨inv.distinct,?_⟩
  intro e good
  exact (edit_conserves inv good).1

/-- Two cells are loaded, and the second one is copied and pasted before the first is cut. -/
theorem pasted_conserves :
    let events := [.load (some [defaultCell,defaultCell]) (fun i => if i = 0 then "a" else "b"),
      .edit (.copyCellByIndex 1),.edit (.pasteCell "c"),.edit .goToPreviousCell]
    Distinct (run step mounted events).1 ∧
      RemovesFocused (run step mounted events).1 (cutCell (run step mounted events).1) := by
  have conserved := edits_conserve [.load (some [defaultCell,defaultCell]) (fun i => if i = 0 then "a" else "b"),
    .edit (.copyCellByIndex 1),.edit (.pasteCell "c"),.edit .goToPreviousCell]
    (by simp [Meets,Good,Unrepeated,FromShown,uuids,step,mounted,FetchFileData,edit,copyCellByIndex,pasteCell,defaultCell]; decide)
  exact ⟨conserved.1,conserved.2 .cutCell ⟨⟨List.nodup_nil,by simp [uuids]⟩,trivial⟩⟩

end Zasper.CellEditing
