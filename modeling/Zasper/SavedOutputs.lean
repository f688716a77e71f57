import Zasper.SentNotebooks

/-!
# Saved outputs

A notebook that was opened, edited and run for a while, then saved, and opened again. Every
cell is found with its source, its type and its count, and it looks as before if and only
if its outputs last and it is one of code (`reopened_looks_iff`).
-/
namespace Zasper.SavedOutputs
open Zasper.Maps Zasper.JsonValues Zasper.JsonText Zasper.Strings Zasper.Structs Zasper.Notebooks Zasper.NotebookJson
open Zasper.Nbformat Zasper.JsonMembers Zasper.ContentManager Zasper.SaveOpen Zasper.Runs
open Zasper.OpenNotebook hiding opened
open Zasper.NotebookCells (ICell NotebookEditor SavedCell Content Edit cellAt addedOutput mounted FetchFileData edit
  updateCells)
open Zasper.CellOutputs hiding Inv inv_opened step_keeps
open Zasper.ShownOutputs Zasper.SentNotebooks
set_option linter.unusedSimpArgs false

/-! ## Answers -/

/-- A cell as the editor reads it in an answer. -/
def answeredCell (c : Cell) : SavedCell :=
  ⟨c.cellType,c.executionCount.toInt,c.source,c.outputs.map (List.map output.encode),some (mapping.encode c.cellMetadata)⟩

def answered (nb : Notebook) : Option (List SavedCell) := nb.cells.map (List.map answeredCell)

/-! ## What is to be kept -/

/-- The outputs that a cell shows; a markdown cell shows none. -/
def looks (arrays : List (List Json)) (cell : ICell) : List Shown :=
  if cell.cellType = "markdown" then [] else (shown arrays cell).map CellOutput

def CellLasts (arrays : List (List Json)) (cell : ICell) : Prop :=
  cell.cellType = "markdown" ∨ shown arrays cell = [] ∨ cell.cellType = "code" ∧ ∀ o ∈ shown arrays cell, Lasting o

structure Inv (editor : NotebookEditor) : Prop where
  cells : ∀ cell ∈ editor.cells, Sendable cell
  copied : ∀ cell ∈ editor.copiedCell, Sendable cell
  outputs : ∀ array ∈ editor.arrays, ∀ o ∈ array, Known o

/-- The messages of the kernel are as documented. -/
def Fit : Event → Prop
  | .arrive content => Documented content
  | _ => True

/-! ## Edits -/

theorem sendable_new (id : String) (array : Nat) : Sendable (NotebookCells.newCell id array) := by
  refine ⟨held_of_small (show (0 : Int).natAbs < 2^53 by decide),?_⟩
  intro j here
  obtain rfl := Option.some.inj here
  exact ⟨by simp [Normalized,Sorted,NormalMembers],.inr ⟨[],rfl⟩⟩

section
variable {editor : NotebookEditor}

/-- An edit that makes no outputs. -/
theorem Inv.same (inv : Inv editor) {after : NotebookEditor} (cells : ∀ cell ∈ after.cells, Sendable cell)
    (copied : ∀ cell ∈ after.copiedCell, cell ∈ editor.cells ∨ cell ∈ editor.copiedCell)
    (arrays : ∀ array ∈ after.arrays, array ∈ editor.arrays ∨ array = []) : Inv after where
  cells := cells
  copied cell here := by
    rcases copied cell here with inside | before
    · exact inv.cells cell inside
    · exact inv.copied cell before
  outputs array there o inside := by
    rcases arrays array there with old | rfl
    · exact inv.outputs array old o inside
    · cases inside

theorem Inv.inserted (inv : Inv editor) {after : NotebookEditor} {index : Int} {uuid : String}
    (cells : after.cells = NotebookCells.insertAt editor.cells index (NotebookCells.newCell uuid editor.arrays.length))
    (arrays : after.arrays = editor.arrays ++ [[]]) (copied : after.copiedCell = editor.copiedCell) : Inv after := by
  refine inv.same ?_ (fun cell here => .inr (copied ▸ here)) ?_
  · intro cell member
    rcases NotebookCells.mem_insertAt.mp (cells ▸ member) with rfl | old
    · exact sendable_new _ _
    · exact inv.cells cell old
  · intro array there
    rw [arrays] at there
    simpa using there

theorem Inv.subset (inv : Inv editor) {after : NotebookEditor} (cells : after.cells ⊆ editor.cells)
    (copied : ∀ cell ∈ after.copiedCell, cell ∈ editor.cells ∨ cell ∈ editor.copiedCell)
    (arrays : after.arrays = editor.arrays) : Inv after :=
  inv.same (fun cell member => inv.cells cell (cells member)) copied (fun _ there => .inl (arrays ▸ there))

/-- What is done to the cells with an id, and to the arrays. -/
theorem updateCells_keeps {cellId : String} {change : ICell → List (List Json) → ICell × List (List Json)}
    {Array : List Json → Prop} (sendable : ∀ cell arrays, Sendable cell → Sendable (change cell arrays).1)
    (outputs : ∀ cell arrays, (∀ array ∈ arrays, Array array) → ∀ array ∈ (change cell arrays).2, Array array)
    {cells : List ICell} {arrays : List (List Json)} (all : ∀ cell ∈ cells, Sendable cell)
    (known : ∀ array ∈ arrays, Array array) :
    (∀ cell ∈ (updateCells cellId change cells arrays).1, Sendable cell) ∧
      ∀ array ∈ (updateCells cellId change cells arrays).2, Array array := by
  induction cells generalizing arrays with
  | nil => exact ⟨by simp [updateCells],known⟩
  | cons cell cells ih =>
    obtain ⟨here,rest⟩ := List.forall_mem_cons.mp all
    by_cases own : cell.id = cellId
    · obtain ⟨later,knownLater⟩ := ih rest (outputs cell arrays known)
      simp only [updateCells,if_pos own]
      exact ⟨List.forall_mem_cons.mpr ⟨sendable cell arrays here,later⟩,knownLater⟩
    · obtain ⟨later,knownLater⟩ := ih rest known
      simp only [updateCells,if_neg own]
      exact ⟨List.forall_mem_cons.mpr ⟨here,later⟩,knownLater⟩

theorem Inv.update (inv : Inv editor) {cellId : String} {change : ICell → List (List Json) → ICell × List (List Json)}
    (sendable : ∀ cell arrays, Sendable cell → Sendable (change cell arrays).1)
    (outputs : ∀ cell arrays, (∀ array ∈ arrays, ∀ o ∈ array, Known o) →
      ∀ array ∈ (change cell arrays).2, ∀ o ∈ array, Known o) :
    Inv (editor.update cellId change) := by
  obtain ⟨cells,arrays⟩ := @updateCells_keeps cellId _ _ sendable outputs _ _ inv.cells inv.outputs
  exact ⟨cells,inv.copied,arrays⟩

theorem Inv.submitCell (inv : Inv editor) (cellId : String) : Inv (NotebookCells.submitCell cellId editor) := by
  apply inv.update
  · intro cell arrays sendable
    exact ⟨held_of_small (show (-1 : Int).natAbs < 2^53 by decide),sendable.metadata⟩
  · intro cell arrays known array there
    rcases List.mem_append.mp there with old | new
    · exact known array old
    · obtain rfl := List.mem_singleton.mp new
      exact fun o inside => absurd inside List.not_mem_nil

theorem Inv.updateCellSource (inv : Inv editor) (value cellId : String) :
    Inv (NotebookCells.updateCellSource value cellId editor) :=
  inv.update (fun _ _ sendable => sendable.congr rfl rfl) (fun _ _ known => known)

theorem Inv.pasteCell (inv : Inv editor) (uuid : String) : Inv (NotebookCells.pasteCell uuid editor) := by
  unfold NotebookCells.pasteCell
  cases copied : editor.copiedCell with
  | none => exact inv
  | some copiedCell =>
    refine inv.same ?_ (fun cell here => .inr (copied ▸ here)) (fun _ there => .inl there)
    intro cell member
    rcases NotebookCells.mem_insertAt.mp member with rfl | old
    · exact (inv.copied copiedCell copied).congr rfl rfl
    · exact inv.cells cell old

theorem Inv.changeCellType (inv : Inv editor) (value : String) : Inv (NotebookCells.changeCellType value editor) := by
  refine inv.same ?_ (fun _ here => .inr here) (fun _ there => .inl there)
  intro cell member
  obtain ⟨⟨old,i⟩,there,rfl⟩ := List.mem_map.mp member
  have sendable := inv.cells old (List.fst_mem_of_mem_zipIdx there)
  dsimp only
  split_ifs
  · exact sendable.congr rfl rfl
  · exact sendable

theorem Inv.deleteCell (inv : Inv editor) : Inv (NotebookCells.deleteCell editor) := by
  unfold NotebookCells.deleteCell
  split_ifs
  · exact inv
  · exact inv.subset (NotebookCells.removeAt_subset ..) (fun _ here => .inr here) rfl

theorem Inv.arrowDown (inv : Inv editor) (addCell : Bool) (uuid : String) :
    Inv (NotebookCells.arrowDown addCell uuid editor) := by
  unfold NotebookCells.arrowDown
  split_ifs
  · exact inv.inserted rfl rfl rfl
  · exact ⟨inv.cells,inv.copied,inv.outputs⟩

theorem Inv.enter (inv : Inv editor) (event : NotebookCells.KeyboardEvent) : Inv (NotebookCells.enter event editor) := by
  unfold NotebookCells.enter
  cases cellAt editor.cells editor.focusedIndex with
  | none => exact inv
  | some cell =>
    have submitted := inv.submitCell cell.id
    dsimp only
    split_ifs
    · exact submitted
    · exact ⟨submitted.cells,submitted.copied,submitted.outputs⟩
    · exact inv

theorem Inv.handleKeyDown (inv : Inv editor) (addCell : Bool) (event : NotebookCells.KeyboardEvent) (uuid : String) :
    Inv (NotebookCells.handleKeyDown addCell event uuid editor) := by
  unfold NotebookCells.handleKeyDown
  split_ifs
  · exact inv.arrowDown addCell uuid
  · exact ⟨inv.cells,inv.copied,inv.outputs⟩
  · exact inv.deleteCell
  · exact inv.enter event
  · exact inv.changeCellType _
  · exact inv.changeCellType _
  · exact inv

theorem Inv.cmdEnter (inv : Inv editor) (cell : ICell) (uuid : String) :
    Inv (NotebookCells.handleCmdEnter cell uuid editor) := by
  unfold NotebookCells.handleCmdEnter
  apply Inv.handleKeyDown
  split_ifs
  · exact inv.submitCell cell.id
  · exact inv

theorem Inv.updateNotebook (inv : Inv editor) {message : NotebookCells.Message} (documented : Documented message.content) :
    Inv (NotebookCells.updateNotebook message editor) := by
  have pushed : ∀ o, addedOutput message.content = some o → Inv (editor.update message.msgId (NotebookCells.push o)) := by
    intro o added
    have new : Known o := .added documented added
    apply inv.update
    · intro cell arrays sendable
      unfold NotebookCells.push
      split
      · exact sendable
      · split_ifs
        · exact sendable.congr rfl rfl
        · exact sendable
    · intro cell arrays known
      unfold NotebookCells.push
      split
      · exact known
      · split_ifs
        · intro array there
          rcases List.mem_append.mp there with old | last
          · exact known array old
          · obtain rfl := List.mem_singleton.mp last
            exact List.forall_mem_singleton.mpr new
        · intro array there o' inside
          obtain ⟨place,here⟩ := List.getElem?_of_mem there
          rw [List.getElem?_modify] at here
          obtain ⟨before,found,rfl⟩ := Option.map_eq_some_iff.mp here
          have old := known before (List.mem_of_getElem? found)
          split_ifs at inside
          · rcases List.mem_append.mp inside with first | last
            · exact old o' first
            · exact List.mem_singleton.mp last ▸ new
          · exact old o' inside
  unfold NotebookCells.updateNotebook
  split
  · next executionCount same =>
    rw [same] at documented
    exact inv.update (fun _ _ sendable => ⟨documented,sendable.metadata⟩) (fun _ _ known => known)
  · cases added : addedOutput message.content with
    | none => exact inv
    | some o => exact pushed o added

theorem Inv.edit (inv : Inv editor) {e : Edit} (edits : ∀ message, e ≠ .message message) :
    Inv (NotebookCells.edit editor e) := by
  cases e with
  | focus index =>
    dsimp only [NotebookCells.edit]
    split_ifs
    · exact ⟨inv.cells,inv.copied,inv.outputs⟩
    · exact inv
  | addCellUp uuid => exact inv.inserted rfl rfl rfl
  | addCellDown uuid => exact inv.inserted rfl rfl rfl
  | deleteCell => exact inv.deleteCell
  | cutCell =>
    exact inv.subset (NotebookCells.removeAt_subset ..) (fun _ here => .inl (NotebookCells.cellAt_mem here)) rfl
  | copyCell => exact inv.subset (List.Subset.refl _) (fun _ here => .inl (NotebookCells.cellAt_mem here)) rfl
  | copyCellByIndex index => exact inv.subset (List.Subset.refl _) (fun _ here => .inl (NotebookCells.cellAt_mem here)) rfl
  | pasteCell uuid => exact inv.pasteCell uuid
  | changeCellType value => exact inv.changeCellType value
  | updateCellSource value cellId => exact inv.updateCellSource value cellId
  | submitCell cellId => exact inv.submitCell cellId
  | keyDown addCell event uuid => exact inv.handleKeyDown addCell event uuid
  | cmdEnter index uuid =>
    dsimp only [NotebookCells.edit]
    cases cellAt editor.cells index with
    | none => exact inv
    | some cell => exact inv.cmdEnter cell uuid
  | goToNextCell => exact ⟨inv.cells,inv.copied,inv.outputs⟩
  | goToPreviousCell => exact ⟨inv.cells,inv.copied,inv.outputs⟩
  | message message => exact absurd rfl (edits message)

end

theorem step_keeps {page : Page} {e : Event} (inv : Inv page.editor) (fit : Fit e) : Inv (step page e).1.editor := by
  cases e with
  | edit e connected =>
    by_cases message : ∃ message, e = .message message
    · obtain ⟨message,rfl⟩ := message
      exact inv
    · have edits : ∀ message, e ≠ .message message := fun m same => message ⟨m,same⟩
      rw [edit_eq page connected edits]
      exact inv.edit edits
  | arrive content =>
    dsimp only [step]
    cases page.waiting with
    | nil => exact inv
    | cons run later => exact inv.updateNotebook fit
  | finish =>
    dsimp only [step]
    cases page.waiting with
    | nil => exact inv
    | cons run later => exact inv

/-! ## Opening -/

/-- A cell of an answer: what is read of it can be sent again. -/
structure Answer (c : SavedCell) : Prop where
  count : Held c.executionCount
  metadata : ∀ j ∈ c.metadata, Normalized j ∧ (j = .null ∨ ∃ members, j = .obj members)
  outputs : ∀ o ∈ c.outputs.getD [], Known o

theorem answer_default : Answer NotebookCells.defaultCell := by
  refine ⟨held_of_small (by decide),?_,?_⟩
  · intro j here
    cases here
  · intro o inside
    cases inside

/-- The outputs of a notebook that is opened have been joined. -/
theorem opened_outputs {file : List UInt8} {c : Cell} (inside : c ∈ items (nbformatReads file).cells) :
    ∀ o ∈ c.outputs.getD [], ∃ disk, o = rejoinOutput disk := by
  rw [nbformatReads_eq,parseNotebook,rejoinLines,items_appended] at inside
  obtain ⟨disk,-,rfl⟩ := List.mem_map.mp inside
  intro o there
  by_cases code : disk.cellType = "code"
  · simp only [rejoinCell,if_pos code] at there
    have joined : o ∈ items (appended ((items disk.outputs).map rejoinOutput)) := there
    rw [items_appended] at joined
    obtain ⟨old,-,rfl⟩ := List.mem_map.mp joined
    exact ⟨old,rfl⟩
  · simp only [rejoinCell,if_neg code,Option.getD_none] at there
    cases there

/-- The counts of a notebook are such as the editor keeps. -/
def Counted (nb : Notebook) : Prop :=
  ∀ c ∈ items nb.cells, Held c.executionCount.toInt ∧ ∀ o ∈ items c.outputs, Held o.executionCount.toInt

theorem answer_opened {file : List UInt8} (counted : Counted (nbformatReads file)) :
    ∀ c ∈ (answered (nbformatReads file)).getD [NotebookCells.defaultCell], Answer c := by
  cases cells : (nbformatReads file).cells with
  | none =>
    simp only [answered,cells,Option.map_none,Option.getD_none,List.mem_singleton,forall_eq]
    exact answer_default
  | some list =>
    simp only [answered,cells,Option.map_some,Option.getD_some,List.mem_map,forall_exists_index,and_imp]
    rintro - c inside rfl
    obtain ⟨count,outputCounts⟩ := counted c (by rw [cells]; exact inside)
    refine ⟨count,?_,?_⟩
    · intro j here
      obtain rfl := Option.some.inj here
      cases c.cellMetadata with
      | none => exact ⟨by simp [mapping,Normalized],.inl rfl⟩
      | some m => exact ⟨(Value.dict m).normal,.inr ⟨_,rfl⟩⟩
    · intro o there
      have joined := @opened_outputs file c (by rw [cells]; exact inside)
      cases outputs : c.outputs with
      | none =>
        rw [answeredCell,outputs] at there
        cases there
      | some outputs' =>
        rw [outputs] at joined outputCounts
        simp only [answeredCell,outputs,Option.map_some,Option.getD_some] at there
        obtain ⟨given,old,rfl⟩ := List.mem_map.mp there
        obtain ⟨disk,rfl⟩ := joined given old
        exact .opened disk (outputCounts _ old)

theorem opened_inv {cells : Option (List SavedCell)} (answers : ∀ c ∈ cells.getD [NotebookCells.defaultCell], Answer c)
    (uuidv4 : Nat → String) : Inv (opened cells uuidv4).editor where
  cells cell member := by
    obtain ⟨⟨saved,i⟩,there,rfl⟩ := List.mem_map.mp member
    have answer := answers saved (List.fst_mem_of_mem_zipIdx there)
    exact ⟨answer.count,answer.metadata⟩
  copied cell here := by cases here
  outputs array there := by
    obtain ⟨saved,inside,rfl⟩ := List.mem_map.mp (show array ∈ (cells.getD [NotebookCells.defaultCell]).map _ from there)
    exact (answers saved inside).outputs

/-- The cell at a place of a notebook that is opened. -/
theorem opened_cell {saved : List SavedCell} {i : Nat} {c : SavedCell} (here : saved[i]? = some c) (uuidv4 : Nat → String) :
    let editor := FetchFileData (some saved) uuidv4 mounted
    ∃ cell, editor.cells[i]? = some cell ∧ cell.source = c.source ∧ cell.cellType = c.cellType ∧
      cell.executionCount = c.executionCount ∧ shown editor.arrays cell = c.outputs.getD [] := by
  intro editor
  refine ⟨⟨c.cellType,uuidv4 i,c.executionCount,c.source,c.outputs.map (fun _ => 0 + i),c.metadata,false⟩,
    ?_,rfl,rfl,rfl,?_⟩
  · simp [editor,FetchFileData,mounted,List.getElem?_zipIdx,here]
  · cases outputs : c.outputs with
    | none => simp [shown,outputs]
    | some list => simp [shown,outputs,editor,FetchFileData,mounted,here]

/-! ## Saving and opening -/

/-- The cell that comes back for one that was sent. -/
theorem reopened_cell (attachments : String → Option (Option Bundle)) (arrays : List (List Json)) {cell : ICell}
    (sendable : Sendable cell) :
    let c := answeredCell (reopenCell (readCell attachments arrays cell))
    c.source = cell.source ∧ c.cellType = cell.cellType ∧ c.executionCount = cell.executionCount ∧
      c.outputs.getD [] = if cell.cellType = "code" then (shown arrays cell).map reopenedOutput else [] := by
  have kept := reopenCell_kept (readCell attachments arrays cell)
  refine ⟨kept.source,kept.cellType,?_,?_⟩
  · show (reopenCell (readCell attachments arrays cell)).executionCount.toInt = cell.executionCount
    rw [kept.executionCount]
    exact Int64.toInt_ofInt_of_le sendable.count.fits.1 sendable.count.fits.2
  · have given : items (readCell attachments arrays cell).outputs =
        (shown arrays cell).map (fun o => (output.decode output.zero o).value) := by
      unfold readCell shown
      cases cell.outputs <;> rfl
    have encoded : (answeredCell (reopenCell (readCell attachments arrays cell))).outputs.getD [] =
        (items (reopenCell (readCell attachments arrays cell)).outputs).map output.encode := by
      unfold answeredCell
      cases (reopenCell (readCell attachments arrays cell)).outputs <;> rfl
    rw [encoded]
    by_cases code : cell.cellType = "code"
    · have again : items (reopenCell (readCell attachments arrays cell)).outputs =
          (items (readCell attachments arrays cell).outputs).map reopenOutput := by
        have isCode : (readCell attachments arrays cell).cellType = "code" := code
        simp [reopenCell,rejoinCell,rereadCellDisk,cellToDisk,isCode,reopenOutput,List.map_map,Function.comp_def]
      rw [again,given,if_pos code,List.map_map,List.map_map]
      rfl
    · have notCode : (readCell attachments arrays cell).cellType ≠ "code" := code
      have none : (reopenCell (readCell attachments arrays cell)).outputs = none := if_neg notCode
      rw [none,if_neg code]
      rfl

/-- What is shown of outputs that came back. -/
theorem looks_same_iff {arrays again : List (List Json)} {cell after : ICell} (known : ∀ o ∈ shown arrays cell, Known o)
    (cellType : after.cellType = cell.cellType)
    (outputs : shown again after = if cell.cellType = "code" then (shown arrays cell).map reopenedOutput else []) :
    looks again after = looks arrays cell ↔ CellLasts arrays cell := by
  unfold looks CellLasts
  rw [cellType,outputs]
  by_cases markdown : cell.cellType = "markdown"
  · simp only [markdown,↓reduceIte,true_or]
  · by_cases code : cell.cellType = "code"
    · have notMarkdown : ¬ "code" = "markdown" := by decide
      simp only [code,notMarkdown,↓reduceIte,false_or,true_and,List.map_map]
      rw [List.map_inj_left]
      constructor
      · intro same
        right
        intro o inside
        exact (known_shown_iff (known o inside)).mp (same o inside)
      · rintro (none | lasting) o inside
        · rw [none] at inside
          cases inside
        · exact (known_shown_iff (known o inside)).mpr (lasting o inside)
    · simp only [markdown,code,↓reduceIte,List.map_nil,false_or,false_and,or_false]
      rw [eq_comm,List.map_eq_nil_iff]

/-- In a run of edits, submissions and documented messages from any notebook that is opened
    and whose counts the editor keeps: the notebook is saved, and once it is opened again
    every cell is there, with its source, its type and its count, and looks as before if
    and only if it lasts. -/
theorem reopened_looks_iff {file : List UInt8} (counted : Counted (nbformatReads file)) (uuidv4 again : Nat → String)
    (attachments : String → Option (Option Bundle)) (kernelName : String) (events : List Event)
    (fit : ∀ e ∈ events, Fit e) :
    let nb := nbformatReads file
    let page := (run step (opened (answered nb) uuidv4) events).1
    ∃ saved, notebookBytes (.ofJson (notebookJson attachments kernelName page.editor)) = .ok saved ∧
      let reopened : NotebookEditor := (opened (answered (nbformatReads saved)) again).editor
      ∀ (i : Nat) (cell : ICell), page.editor.cells[i]? = some cell → ∃ after, reopened.cells[i]? = some after ∧
        after.source = cell.source ∧ after.cellType = cell.cellType ∧ after.executionCount = cell.executionCount ∧
        (looks reopened.arrays after = looks page.editor.arrays cell ↔ CellLasts page.editor.arrays cell) := by
  intro nb page
  have inv : Inv page.editor := by
    have good : Meets step (fun _ e => Fit e) (opened (answered nb) uuidv4) events :=
      meets_of_forall (fun e inside _ => fit e inside)
    exact (@run_keeps _ _ _ step (fun _ e => Fit e) (fun page => Inv page.editor) (fun _ => True)
      (fun page e inv fit => ⟨step_keeps inv fit,trivial⟩) _ (opened_inv (answer_opened counted) uuidv4) events good).1
  refine ⟨_,notebookBytes_sent ⟨inv.cells,inv.outputs⟩ kernelName,?_⟩
  intro reopened i cell here
  have cells : answered (nbformatReads (marshalIndent (notebookDisk.encode (convertToNbDisk
      (readNotebook attachments kernelName page.editor))))) =
      some ((page.editor.cells.map (readCell attachments page.editor.arrays)).map
        (fun c => answeredCell (reopenCell c))) := by
    have some : (page.editor.cells.map (readCell attachments page.editor.arrays)).map reopenCell ≠ [] := by
      intro none
      rw [List.map_eq_nil_iff.mp (List.map_eq_nil_iff.mp none)] at here
      cases here
    have read := reopened_eq (readNotebook attachments kernelName page.editor)
    rw [show SaveOpen.reopened _ = nbformatReads _ from rfl] at read
    rw [read,answered]
    show (appended ((page.editor.cells.map (readCell attachments page.editor.arrays)).map reopenCell)).map _ = _
    rw [appended,if_neg some,Option.map_some,List.map_map]
    rfl
  have place : ((page.editor.cells.map (readCell attachments page.editor.arrays)).map
      (fun c => answeredCell (reopenCell c)))[i]? =
        some (answeredCell (reopenCell (readCell attachments page.editor.arrays cell))) := by
    simp [here]
  obtain ⟨after,there,source,type,count,outputs⟩ := opened_cell place again
  obtain ⟨sameSource,sameType,sameCount,sameOutputs⟩ :=
    reopened_cell attachments page.editor.arrays (inv.cells cell (List.mem_of_getElem? here))
  have editor : reopened = FetchFileData (some ((page.editor.cells.map (readCell attachments page.editor.arrays)).map
      (fun c => answeredCell (reopenCell c)))) again mounted := by
    rw [← cells]
    rfl
  rw [editor]
  refine ⟨after,there,source.trans sameSource,type.trans sameType,count.trans sameCount,?_⟩
  exact looks_same_iff (known_shown ⟨inv.cells,inv.outputs⟩ cell) (type.trans sameType) (outputs.trans sameOutputs)

/-- A slider and the text that stands for it. -/
def sliderData : Json := .obj [(widgetView,.obj [("model_id",.str "m")]),("text/plain",.str "Slider")]

theorem sliderData_sent : Sent sliderData where
  object := by decide
  normal := by
    have same : denoted sliderData = sliderData := by decide +kernel
    exact same ▸ norm_normal sliderData
  texts key shown j here := by
    simp only [List.mem_cons,List.not_mem_nil,or_false] at shown
    rcases shown with rfl | rfl | rfl
    · cases here
    · cases here
    · exact ⟨"Slider",(Option.some.inj here).symm⟩
  widget j here := ⟨_,.str "m",(Option.some.inj here).symm,(Option.some.inj here) ▸ rfl⟩

/-- A cell is run and shows the slider. -/
def slider : List Event := [.edit (.submitCell "a") true,.arrive (.displayData sliderData),.finish]

/-- The slider is gone once the notebook was saved and opened. -/
theorem slider_lost :
    let page := (run step (opened (answered (nbformatReads [])) (fun _ => "a")) slider).1
    ∃ saved, notebookBytes (.ofJson (notebookJson (fun _ => none) "python3" page.editor)) = .ok saved ∧
      let reopened : NotebookEditor := (opened (answered (nbformatReads saved)) (fun _ => "b")).editor
      ∃ cell ∈ page.editor.cells[0]?, ∃ after ∈ reopened.cells[0]?,
        looks reopened.arrays after ≠ looks page.editor.arrays cell := by
  intro page
  have fit : ∀ e ∈ slider, Fit e := by
    simp only [slider,List.forall_mem_cons,List.not_mem_nil,false_implies,implies_true,and_true]
    exact ⟨trivial,sliderData_sent,trivial⟩
  have noCells : Counted (nbformatReads []) := by
    rw [Counted,nbformatReads_invalid rfl]
    exact fun c inside => absurd inside List.not_mem_nil
  obtain ⟨saved,sent,cells⟩ := reopened_looks_iff noCells (fun _ => "a") (fun _ => "b") (fun _ => none) "python3" slider fit
  have here : page.editor.cells[0]? = some ⟨"code","a",-1,"",some 2,none,false⟩ := rfl
  have shows : shown page.editor.arrays ⟨"code","a",-1,"",some 2,none,false⟩ = [.obj [("data",sliderData)]] := rfl
  obtain ⟨after,there,-,-,-,same⟩ := cells 0 _ here
  refine ⟨saved,sent,_,here,after,there,?_⟩
  intro alike
  rcases same.mp alike with markdown | none | ⟨-,lasting⟩
  · exact absurd markdown (by decide)
  · rw [shows] at none
    cases none
  · have inside : Json.obj [("data",sliderData)] ∈ shown page.editor.arrays ⟨"code","a",-1,"",some 2,none,false⟩ := by
      rw [shows]
      exact List.mem_singleton_self _
    have widget : some (Json.str "m") = none := lasting _ inside
    cases widget

end Zasper.SavedOutputs
