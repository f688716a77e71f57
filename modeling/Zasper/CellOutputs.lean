import Zasper.CellEditing

/-!
# Outputs of cells

A notebook editor and its kernel. A cell that is submitted goes to the kernel as a run,
whose messages name the cell; the kernel serves the runs in order. A cell shows the
outputs of its latest run (`outputs_shown`) as long as every stream is `stdout`, an
output arrives for no run but the latest of its cell, the array it is pushed to is not
that of another cell, and no cell whose outputs are shown is submitted in vain.
-/
namespace Zasper.CellOutputs
open Zasper.JsonValues Zasper.NotebookCells Zasper.CellEditing Zasper.Runs
set_option linter.unusedSimpArgs false

/-- A request to execute a cell, and what has arrived for it. -/
structure Run where
  cellId : String
  messages : List Content

/-- The run once a message has arrived for it. -/
def Run.receive (run : Run) (content : Content) : Run := { run with messages := run.messages ++ [content] }

@[simp] theorem receive_cellId (run : Run) (content : Content) : (run.receive content).cellId = run.cellId := rfl

structure Page where
  editor : NotebookEditor
  /-- The runs that the kernel is done with, and those to come; the first of these is served. -/
  served : List Run
  waiting : List Run

/-- The runs in order of submission. -/
def Page.runs (page : Page) : List Run := page.served ++ page.waiting

inductive Event where
  /-- The notebook is edited, while the kernel can be reached or not. -/
  | edit (e : Edit) (connected : Bool)
  /-- A message of the run that is served arrives. -/
  | arrive (content : Content)
  /-- The kernel is done with the run. -/
  | finish

/-- The cell that an edit submits. -/
def executed (editor : NotebookEditor) : Edit → Option String
  | .submitCell cellId => if editor.cells.any (fun cell => cell.id = cellId) then some cellId else none
  | .keyDown _ event _ =>
    if event.key = "Enter" ∧ (event.ctrlKey ∨ event.shiftKey) then
      (cellAt editor.cells editor.focusedIndex).map ICell.id
    else none
  | .cmdEnter index _ => ((cellAt editor.cells index).filter (fun cell => cell.cellType = "code")).map ICell.id
  | _ => none

def step (page : Page) : Event → Page × Unit
  -- messages come from the kernel
  | .edit (.message _) _ => (page,())
  | .edit e connected =>
    match executed page.editor e with
    | some cellId =>
      ({ page with
          editor := edit page.editor e
          waiting := if connected then page.waiting ++ [⟨cellId,[]⟩] else page.waiting },())
    | none => ({ page with editor := edit page.editor e },())
  | .arrive content =>
    match page.waiting with
    | [] => (page,())
    | run :: later =>
      ({ page with
          editor := updateNotebook ⟨run.cellId,content⟩ page.editor
          waiting := run.receive content :: later },())
  | .finish =>
    match page.waiting with
    | [] => (page,())
    | run :: later => ({ page with served := page.served ++ [run], waiting := later },())

/-- A notebook that was loaded, before anything is submitted. -/
def opened (cells : Option (List SavedCell)) (uuidv4 : Nat → String) : Page :=
  ⟨FetchFileData cells uuidv4 mounted,[],[]⟩

/-! ## What cells are to show -/

/-- The output that a message stands for. -/
def output : Content → Option Json
  | .stream _ text => some (.obj [("text",.str (removeAnsiCodes text)),("output_type",.str "stream")])
  | content => addedOutput content

def Run.outputs (run : Run) : List Json := run.messages.filterMap output

/-- The outputs that a cell shows. -/
def shown (arrays : List (List Json)) (cell : ICell) : List Json :=
  match cell.outputs with
  | none => []
  | some array => arrays[array]?.getD []

/-- The latest of the runs of a cell. -/
def latest (runs : List Run) (cellId : String) : Option Run := (runs.filter (fun run => run.cellId = cellId)).getLast?

/-- Every cell shows the outputs of its latest run, as far as these have arrived. -/
def Shows (page : Page) : Prop :=
  ∀ cell ∈ page.editor.cells, ∀ run ∈ latest page.runs cell.id, shown page.editor.arrays cell = run.outputs

/-- A message of the run that is served changes the outputs of no cell but its own. -/
def LeavesOthers (page : Page) (content : Content) : Prop :=
  ∀ run ∈ page.waiting.head?, ∀ cell ∈ page.editor.cells, cell.id ≠ run.cellId →
    let after := (step page (.arrive content)).1.editor
    cell ∈ after.cells ∧ shown after.arrays cell = shown page.editor.arrays cell

/-- No other cell has the outputs of the cell in its array. -/
def Unshared (editor : NotebookEditor) (cellId : String) : Prop :=
  ∀ cell ∈ editor.cells, cell.id = cellId → shown editor.arrays cell ≠ [] →
    ∀ other ∈ editor.cells, other.id ≠ cellId → other.outputs ≠ cell.outputs

def Good (page : Page) : Event → Prop
  | .edit e connected =>
    CellEditing.Good page.editor (.edit e) ∧
    (connected = true ∨
      ∀ cellId ∈ executed page.editor e, ∀ run ∈ latest page.runs cellId, run.outputs = [])
  | .arrive content =>
    match page.waiting with
    | [] => True
    | run :: later =>
      (output content).isSome → (∃ cell ∈ page.editor.cells, cell.id = run.cellId) →
        (∀ name text, content = .stream name text → name = "stdout") ∧
        (∀ other ∈ later, other.cellId ≠ run.cellId) ∧
        Unshared page.editor run.cellId
  | .finish => True

/-! ## Latest runs -/

theorem latest_append (first second : List Run) (cellId : String) :
    latest (first ++ second) cellId = (latest second cellId).or (latest first cellId) := by
  simp only [latest,List.filter_append,List.getLast?_append]

theorem latest_single (run : Run) (cellId : String) :
    latest [run] cellId = if run.cellId = cellId then some run else none := by
  simp only [latest,List.filter_cons,List.filter_nil,decide_eq_true_eq]
  split_ifs <;> rfl

theorem latest_none {runs : List Run} {cellId : String} (without : ∀ run ∈ runs, run.cellId ≠ cellId) :
    latest runs cellId = none := by
  rw [latest,List.getLast?_eq_none_iff,List.filter_eq_nil_iff]
  intro run member
  simpa using without run member

/-- No later run is of the cell. -/
theorem latest_alone (served : List Run) {run : Run} {later : List Run} (alone : ∀ other ∈ later, other.cellId ≠ run.cellId) :
    latest (served ++ run :: later) run.cellId = some run := by
  rw [← List.singleton_append,latest_append,latest_append,latest_none alone,latest_single,if_pos rfl]
  rfl

theorem latest_mem {runs : List Run} {cellId : String} {run : Run} (last : run ∈ latest runs cellId) :
    run ∈ runs ∧ run.cellId = cellId := by
  simpa using List.mem_of_getLast? last

/-! ## Arrays -/

/-- The array of the cell exists. -/
def Valid (arrays : List (List Json)) (cell : ICell) : Prop := ∀ array ∈ cell.outputs, array < arrays.length

section
variable {arrays : List (List Json)} {cell : ICell}

theorem Valid.mono {more : List (List Json)} (valid : Valid arrays cell) (grown : arrays <+: more) : Valid more cell := by
  intro array here
  exact (valid array here).trans_le grown.length_le

/-- New arrays leave what a cell shows. -/
theorem shown_grown {more : List (List Json)} (valid : Valid arrays cell) (grown : arrays <+: more) :
    shown more cell = shown arrays cell := by
  unfold shown
  split
  · rfl
  · next array here =>
    obtain ⟨rest,rfl⟩ := grown
    rw [List.getElem?_append_left (valid array here)]

theorem shown_congr {other : ICell} (same : other.outputs = cell.outputs) : shown arrays other = shown arrays cell := by
  simp only [shown,same]

theorem valid_congr {other : ICell} (same : other.outputs = cell.outputs) (valid : Valid arrays cell) :
    Valid arrays other := by
  rwa [Valid,same]

theorem push_id (out : Json) (cell : ICell) (arrays : List (List Json)) : (push out cell arrays).1.id = cell.id := by
  unfold push
  split
  · rfl
  · split_ifs <;> rfl

/-- A cell with an array shows what is pushed after its outputs. -/
theorem push_shown (out : Json) {array : Nat} (here : cell.outputs = some array) (inside : array < arrays.length) :
    let pushed := push out cell arrays
    shown pushed.2 pushed.1 = shown arrays cell ++ [out] ∧ pushed.1.outputs.isSome ∧ Valid pushed.2 pushed.1 := by
  simp only [push,here]
  split_ifs with empty
  · refine ⟨?_,rfl,?_⟩
    · simp [shown,here,empty]
    · intro array new
      obtain rfl := Option.some.inj new
      simp
  · refine ⟨?_,?_,?_⟩
    · simp [shown,here,List.getElem?_modify,List.getElem?_eq_getElem inside]
    · simp [here]
    · intro other same
      obtain rfl := Option.some.inj (here.symm.trans same)
      simpa using inside

theorem push_valid (out : Json) {other : ICell} (valid : Valid arrays other) :
    Valid (push out cell arrays).2 other := by
  unfold push
  split
  · exact valid
  · split_ifs
    · exact valid.mono (List.prefix_append ..)
    · intro array here
      simpa using valid array here

/-- A cell with another array shows the same as before. -/
theorem push_other (out : Json) {other : ICell} (valid : Valid arrays other)
    (unshared : shown arrays cell ≠ [] → other.outputs ≠ cell.outputs) :
    shown (push out cell arrays).2 other = shown arrays other := by
  unfold push
  cases here : cell.outputs with
  | none => rfl
  | some array =>
    dsimp only
    split_ifs with empty
    · exact shown_grown valid (List.prefix_append ..)
    · have different : other.outputs ≠ some array := by
        rw [← here]
        apply unshared
        simpa only [shown,here] using empty
      unfold shown
      split
      · rfl
      · next there same =>
        have apart : array ≠ there := by
          rintro rfl
          exact different same
        simp [List.getElem?_modify,apart]

end

/-! ## Edits -/

/-- The arrays of the cells, and of the copied one, exist. -/
structure Sound (editor : NotebookEditor) : Prop where
  cells : ∀ cell ∈ editor.cells, Valid editor.arrays cell
  copied : ∀ cell ∈ editor.copiedCell, Valid editor.arrays cell

/-- Every cell has the outputs that it had, or a new id. -/
structure Carries (uuids : List String) (before after : NotebookEditor) : Prop where
  arrays : before.arrays <+: after.arrays
  cells : ∀ cell ∈ after.cells, (∃ old ∈ before.cells, old.id = cell.id ∧ old.outputs = cell.outputs) ∨
    (cell.id ∈ uuids ∧ Valid after.arrays cell)
  copied : ∀ cell ∈ after.copiedCell, Valid after.arrays cell
  issued : before.issued ⊆ after.issued

section
variable {editor : NotebookEditor} {addCell : Bool} {event : KeyboardEvent} {uuid : String} {index : Int}

/-- An edit that makes no array and no cell. -/
theorem Sound.carries (sound : Sound editor) {after : NotebookEditor} {uuids : List String}
    (cells : after.cells ⊆ editor.cells) (arrays : after.arrays = editor.arrays)
    (copied : ∀ cell ∈ after.copiedCell, cell ∈ editor.cells ∨ cell ∈ editor.copiedCell)
    (issued : after.issued = editor.issued) : Carries uuids editor after where
  arrays := by
    simp only [arrays,List.prefix_rfl]
  cells := by
    intro cell member
    exact .inl ⟨cell,cells member,rfl,rfl⟩
  copied := by
    intro cell here
    rw [arrays]
    rcases copied cell here with member | member
    · exact sound.cells cell member
    · exact sound.copied cell member
  issued := by rw [issued]; exact List.Subset.refl _

theorem Sound.refl (sound : Sound editor) (uuids : List String) : Carries uuids editor editor :=
  sound.carries (List.Subset.refl _) rfl (fun _ here => .inr here) rfl

/-- An update that leaves the id and the outputs of every cell. -/
theorem update_carries (sound : Sound editor) {cellId : String}
    {change : ICell → List (List Json) → ICell × List (List Json)} (uuids : List String)
    (same : ∀ cell arrays, (change cell arrays).1.id = cell.id ∧ (change cell arrays).1.outputs = cell.outputs)
    (arrays : ∀ cell arrays, (change cell arrays).2 = arrays) : Carries uuids editor (editor.update cellId change) := by
  have kept : ∀ cells more, (updateCells cellId change cells more).2 = more := by
    intro cells
    induction cells with
    | nil => exact fun _ => rfl
    | cons cell cells ih =>
      intro more
      simp only [updateCells,ih]
      split_ifs
      · exact arrays cell more
      · rfl
  have read := @map_updateCells _ (fun cell => (cell.id,cell.outputs)) cellId change
    (fun cell more => Prod.ext (same cell more).1 (same cell more).2) editor.cells editor.arrays
  refine ⟨?_,?_,?_,List.Subset.refl _⟩
  · simp only [NotebookEditor.update,kept,List.prefix_rfl]
  · intro cell member
    have there := List.mem_map_of_mem (f := fun cell => (cell.id,cell.outputs)) member
    rw [NotebookEditor.update,read] at there
    obtain ⟨old,here,pair⟩ := List.mem_map.mp there
    exact .inl ⟨old,here,congrArg Prod.fst pair,congrArg Prod.snd pair⟩
  · intro cell here
    rw [NotebookEditor.update,kept]
    exact sound.copied cell here

theorem newCell_carries (sound : Sound editor) {after : NotebookEditor}
    (cells : after.cells = insertAt editor.cells index (newCell uuid editor.arrays.length))
    (arrays : after.arrays = editor.arrays ++ [[]]) (copied : after.copiedCell = editor.copiedCell)
    (issued : after.issued = editor.issued ++ [uuid]) : Carries [uuid] editor after where
  arrays := by
    rw [arrays]
    exact List.prefix_append ..
  cells := by
    intro cell member
    rcases mem_insertAt.mp (cells ▸ member) with rfl | old
    · refine .inr ⟨List.mem_singleton_self _,?_⟩
      intro array here
      obtain rfl := Option.some.inj here
      simp [arrays]
    · exact .inl ⟨cell,old,rfl,rfl⟩
  copied := by
    intro cell here
    rw [copied] at here
    apply (sound.copied cell here).mono
    rw [arrays]
    exact List.prefix_append ..
  issued := by
    rw [issued]
    exact List.subset_append_left ..

theorem pasteCell_carries (sound : Sound editor) (uuid : String) : Carries [uuid] editor (pasteCell uuid editor) := by
  unfold pasteCell
  cases copied : editor.copiedCell with
  | none => exact sound.refl _
  | some copiedCell =>
    have valid : Valid editor.arrays copiedCell := sound.copied copiedCell copied
    refine ⟨List.prefix_rfl,?_,?_,List.subset_append_left ..⟩
    · intro cell member
      rcases mem_insertAt.mp member with rfl | old
      · exact .inr ⟨List.mem_singleton_self _,valid⟩
      · exact .inl ⟨cell,old,rfl,rfl⟩
    · intro cell here
      obtain rfl := Option.some.inj here
      exact valid

theorem changeCellType_carries (sound : Sound editor) (value : String) (uuids : List String) :
    Carries uuids editor (changeCellType value editor) := by
  refine ⟨List.prefix_rfl,?_,sound.copied,List.Subset.refl _⟩
  intro cell member
  obtain ⟨⟨old,i⟩,there,rfl⟩ := List.mem_map.mp member
  refine .inl ⟨old,List.fst_mem_of_mem_zipIdx there,?_⟩
  dsimp only
  split_ifs <;> exact ⟨rfl,rfl⟩

theorem arrowDown_carries (sound : Sound editor) (addCell : Bool) (uuid : String) :
    Carries [uuid] editor (arrowDown addCell uuid editor) := by
  unfold arrowDown
  split_ifs
  · exact newCell_carries sound rfl rfl rfl rfl
  · exact sound.carries (List.Subset.refl _) rfl (fun _ here => .inr here) rfl

theorem deleteCell_carries (sound : Sound editor) (uuids : List String) : Carries uuids editor (deleteCell editor) := by
  unfold deleteCell
  split_ifs
  · exact sound.refl _
  · exact sound.carries (removeAt_subset ..) rfl (fun _ here => .inr here) rfl

/-- The editor once the cell that the edit submits is submitted. -/
def submittedFirst (editor : NotebookEditor) (e : Edit) : NotebookEditor :=
  match executed editor e with
  | some cellId => submitCell cellId editor
  | none => editor

theorem enter_carries (sound : Sound (submittedFirst editor (.keyDown addCell event uuid))) (key : event.key = "Enter") :
    Carries [uuid] (submittedFirst editor (.keyDown addCell event uuid)) (enter event editor) := by
  simp only [submittedFirst,executed,key,true_and] at sound ⊢
  unfold enter
  cases here : cellAt editor.cells editor.focusedIndex with
  | none =>
    simp only [here,Option.map_none,ite_self] at sound ⊢
    exact sound.refl _
  | some cell =>
    by_cases ctrl : event.ctrlKey = true
    · simp only [here,ctrl,true_or,↓reduceIte,Option.map_some] at sound ⊢
      exact sound.refl _
    · by_cases shift : event.shiftKey = true
      · simp only [here,ctrl,shift,or_true,↓reduceIte,Option.map_some] at sound ⊢
        exact sound.carries (List.Subset.refl _) rfl (fun _ here => .inr here) rfl
      · simp only [here,ctrl,shift,or_false,↓reduceIte] at sound ⊢
        exact sound.refl _

theorem keyDown_carries (sound : Sound editor) (soundSubmitted : Sound (submittedFirst editor (.keyDown addCell event uuid))) :
    Carries [uuid] (submittedFirst editor (.keyDown addCell event uuid)) (handleKeyDown addCell event uuid editor) := by
  by_cases key : event.key = "Enter"
  · have enters : handleKeyDown addCell event uuid editor = enter event editor := by
      simp [handleKeyDown,Deletes,key]
    rw [enters]
    exact enter_carries soundSubmitted key
  · have nothing : submittedFirst editor (.keyDown addCell event uuid) = editor := by
      simp [submittedFirst,executed,key]
    rw [nothing]
    simp only [handleKeyDown,key,↓reduceIte]
    split_ifs
    · exact arrowDown_carries sound addCell uuid
    · exact sound.carries (List.Subset.refl _) rfl (fun _ here => .inr here) rfl
    · exact deleteCell_carries sound _
    · exact changeCellType_carries sound _ _
    · exact changeCellType_carries sound _ _
    · exact sound.refl _

theorem cmdEnter_carries (soundSubmitted : Sound (submittedFirst editor (.cmdEnter index uuid))) :
    Carries [uuid] (submittedFirst editor (.cmdEnter index uuid)) (edit editor (.cmdEnter index uuid)) := by
  simp only [submittedFirst,executed,edit,handleCmdEnter,handleKeyDown,↓reduceIte] at soundSubmitted ⊢
  cases here : cellAt editor.cells index with
  | none =>
    simp only [here,Option.filter_none,Option.map_none] at soundSubmitted ⊢
    exact soundSubmitted.refl _
  | some cell =>
    by_cases code : cell.cellType = "code"
    · simp only [here,Option.filter_some,code,decide_true,↓reduceIte,Option.map_some] at soundSubmitted ⊢
      exact arrowDown_carries soundSubmitted true uuid
    · simp only [here,Option.filter_some,code,decide_false,Bool.false_eq_true,↓reduceIte,Option.map_none]
        at soundSubmitted ⊢
      exact arrowDown_carries soundSubmitted true uuid

/-- What an edit does beside the submission carries the outputs of the cells. -/
theorem edit_carries (sound : Sound editor) {e : Edit} (soundSubmitted : Sound (submittedFirst editor e))
    (edits : ∀ message, e ≠ .message message) :
    Carries (uuids (.edit e)) (submittedFirst editor e) (edit editor e) := by
  cases e with
  | focus index =>
    dsimp only [edit]
    split_ifs
    · exact sound.carries (List.Subset.refl _) rfl (fun _ here => .inr here) rfl
    · exact sound.refl _
  | addCellUp uuid => exact newCell_carries sound rfl rfl rfl rfl
  | addCellDown uuid => exact newCell_carries sound rfl rfl rfl rfl
  | deleteCell => exact deleteCell_carries sound _
  | cutCell => exact sound.carries (removeAt_subset ..) rfl (fun _ here => .inl (cellAt_mem here)) rfl
  | copyCell => exact sound.carries (List.Subset.refl _) rfl (fun _ here => .inl (cellAt_mem here)) rfl
  | copyCellByIndex index => exact sound.carries (List.Subset.refl _) rfl (fun _ here => .inl (cellAt_mem here)) rfl
  | pasteCell uuid => exact pasteCell_carries sound uuid
  | changeCellType value => exact changeCellType_carries sound value _
  | updateCellSource value cellId => exact update_carries sound _ (fun _ _ => ⟨rfl,rfl⟩) (fun _ _ => rfl)
  | submitCell cellId =>
    by_cases here : editor.cells.any (fun cell => cell.id = cellId)
    · have submits : submittedFirst editor (.submitCell cellId) = submitCell cellId editor := by
        simp only [submittedFirst,executed,here,↓reduceIte]
      rw [submits] at soundSubmitted ⊢
      exact soundSubmitted.refl _
    · have absent : ∀ cell ∈ editor.cells, cell.id ≠ cellId := by simpa using here
      have same : edit editor (.submitCell cellId) = editor := by
        simp only [edit,submitCell,NotebookEditor.update,updateCells_absent absent]
      have nothing : submittedFirst editor (.submitCell cellId) = editor := by
        simp only [submittedFirst,executed,here,Bool.false_eq_true,↓reduceIte]
      rw [same,nothing]
      exact sound.refl _
  | keyDown addCell event uuid => exact keyDown_carries sound soundSubmitted
  | cmdEnter index uuid => exact cmdEnter_carries soundSubmitted
  | goToNextCell => exact sound.carries (List.Subset.refl _) rfl (fun _ here => .inr here) rfl
  | goToPreviousCell => exact sound.carries (List.Subset.refl _) rfl (fun _ here => .inr here) rfl
  | message message => exact absurd rfl (edits message)

end

/-! ## Pages -/

structure Inv (page : Page) : Prop where
  editing : CellEditing.Inv page.editor
  sound : Sound page.editor
  known : ∀ run ∈ page.runs, run.cellId ∈ page.editor.issued
  holds : ∀ cell ∈ page.editor.cells, ∀ run ∈ latest page.runs cell.id,
    cell.outputs.isSome ∧ shown page.editor.arrays cell = run.outputs

section
variable {page : Page}

theorem Inv.shows (inv : Inv page) : Shows page := by
  intro cell member run last
  exact (inv.holds cell member run last).2

/-- An edit that carries the outputs of the cells keeps what they show. -/
theorem Inv.carried (inv : Inv page) {after : NotebookEditor} {uuids : List String}
    (carries : Carries uuids page.editor after) (new : ∀ uuid ∈ uuids, uuid ∉ page.editor.issued)
    (editing : CellEditing.Inv after) : Inv { page with editor := after } where
  editing := editing
  sound := by
    refine ⟨?_,carries.copied⟩
    intro cell member
    rcases carries.cells cell member with ⟨old,there,-,outputs⟩ | ⟨-,valid⟩
    · exact (valid_congr outputs.symm (inv.sound.cells old there)).mono carries.arrays
    · exact valid
  known := by
    intro run member
    exact carries.issued (inv.known run member)
  holds := by
    intro cell member run last
    rcases carries.cells cell member with ⟨old,there,id,outputs⟩ | ⟨isNew,-⟩
    · obtain ⟨some,same⟩ := inv.holds old there run (id ▸ last)
      refine ⟨outputs ▸ some,?_⟩
      rw [shown_grown (valid_congr outputs.symm (inv.sound.cells old there)) carries.arrays,shown_congr outputs.symm]
      exact same
    · obtain ⟨member,id⟩ := latest_mem last
      exact absurd (inv.known run member) (id ▸ new _ isNew)

/-- A cell is submitted: it shows nothing, as its latest run does. -/
theorem Inv.submitted (inv : Inv page) {target : ICell} (member : target ∈ page.editor.cells) {waiting : List Run}
    (known : ∀ run ∈ page.served ++ waiting, run.cellId ∈ page.editor.issued)
    (own : ∀ run ∈ latest (page.served ++ waiting) target.id, run.outputs = [])
    (others : ∀ id, id ≠ target.id → latest (page.served ++ waiting) id = latest page.runs id) :
    Inv { page with editor := submitCell target.id page.editor, waiting := waiting } := by
  have grown : page.editor.arrays <+: page.editor.arrays ++ [[]] := List.prefix_append ..
  have editor : submitCell target.id page.editor =
      { page.editor with
        cells := page.editor.cells.map (fun cell =>
          if cell.id = target.id then
            { target with executionCount := -1, outputs := some page.editor.arrays.length }
          else cell)
        arrays := page.editor.arrays ++ [[]] } := by
    rw [submitCell,NotebookEditor.update,updateCells_distinct inv.editing.distinct member]
    rfl
  refine ⟨?_,?_,known,?_⟩
  · exact (submitCell_same ..).inv inv.editing inv.editing.nonneg
  · rw [editor]
    refine ⟨?_,fun cell here => (inv.sound.copied cell here).mono grown⟩
    intro cell there
    obtain ⟨old,oldMember,rfl⟩ := List.mem_map.mp there
    split_ifs
    · intro array here
      obtain rfl := Option.some.inj here
      simp
    · exact (inv.sound.cells old oldMember).mono grown
  · rw [editor]
    intro cell there run last
    obtain ⟨old,oldMember,rfl⟩ := List.mem_map.mp there
    dsimp only at last ⊢
    split_ifs at last ⊢ with here
    · refine ⟨rfl,?_⟩
      rw [own run last]
      simp [shown]
    · have before := inv.holds old oldMember run (others old.id here ▸ last)
      refine ⟨before.1,?_⟩
      rw [shown_grown (inv.sound.cells old oldMember) grown]
      exact before.2

theorem executed_mem {editor : NotebookEditor} {e : Edit} {cellId : String} (submits : cellId ∈ executed editor e) :
    ∃ cell ∈ editor.cells, cell.id = cellId := by
  unfold executed at submits
  split at submits
  · split_ifs at submits with here
    · obtain ⟨cell,member,id⟩ := List.any_eq_true.mp here
      obtain rfl := Option.some.inj submits
      exact ⟨cell,member,by simpa using id⟩
    · cases submits
  · split_ifs at submits
    · obtain ⟨cell,here,id⟩ := Option.map_eq_some_iff.mp submits
      exact ⟨cell,cellAt_mem here,id⟩
    · cases submits
  · obtain ⟨cell,here,id⟩ := Option.map_eq_some_iff.mp submits
    exact ⟨cell,cellAt_mem (Option.filter_eq_some_iff.mp here).1,id⟩
  · cases submits

theorem edit_eq (page : Page) {e : Edit} (connected : Bool) (edits : ∀ message, e ≠ .message message) :
    (step page (.edit e connected)).1 =
      { page with
        editor := edit page.editor e
        waiting := match executed page.editor e with
          | some cellId => if connected then page.waiting ++ [⟨cellId,[]⟩] else page.waiting
          | none => page.waiting } := by
  cases e with
  | message message => exact absurd rfl (edits message)
  | _ =>
    dsimp only [step]
    split <;> simp_all

/-- The runs once a cell is submitted. -/
theorem submittedFirst_inv (inv : Inv page) {e : Edit} {connected : Bool} (good : Good page (.edit e connected)) :
    Inv { page with
      editor := submittedFirst page.editor e
      waiting := match executed page.editor e with
        | some cellId => if connected then page.waiting ++ [⟨cellId,[]⟩] else page.waiting
        | none => page.waiting } := by
  unfold submittedFirst
  cases submits : executed page.editor e with
  | none => exact inv
  | some cellId =>
    obtain ⟨target,member,rfl⟩ := executed_mem submits
    dsimp only
    by_cases sent : connected = true
    · rw [if_pos sent]
      apply inv.submitted member
      · intro run there
        rw [← List.append_assoc] at there
        rcases List.mem_append.mp there with old | new
        · exact inv.known run old
        · obtain rfl := List.mem_singleton.mp new
          exact inv.editing.known target member
      · intro run last
        rw [← List.append_assoc,latest_append,latest_single,if_pos rfl] at last
        obtain rfl := Option.some.inj last
        rfl
      · intro id other
        rw [← List.append_assoc,latest_append,latest_single,if_neg (Ne.symm other)]
        rfl
    · rw [if_neg sent]
      apply inv.submitted member
      · exact inv.known
      · exact good.2.resolve_left sent _ submits
      · intro _ _
        rfl

theorem edit_keeps (inv : Inv page) {e : Edit} {connected : Bool} (good : Good page (.edit e connected)) :
    Inv (step page (.edit e connected)).1 := by
  by_cases message : ∃ message, e = .message message
  · obtain ⟨message,rfl⟩ := message
    exact inv
  · have edits : ∀ message, e ≠ .message message := by
      intro m same
      exact message ⟨m,same⟩
    have submitted := submittedFirst_inv inv good
    rw [edit_eq page connected edits]
    apply submitted.carried (edit_carries inv.sound submitted.sound edits)
    · intro uuid member
      have issued : (submittedFirst page.editor e).issued = page.editor.issued := by
        unfold submittedFirst
        split <;> rfl
      exact issued ▸ good.1.1.2 uuid member
    · exact (edit_conserves inv.editing good.1).2

/-! ## Messages -/

/-- A message that stands for no output leaves the outputs of all cells. -/
theorem quiet_carries {editor : NotebookEditor} (sound : Sound editor) {cellId : String} {content : Content}
    (quiet : addedOutput content = none) : Carries [] editor (updateNotebook ⟨cellId,content⟩ editor) := by
  unfold updateNotebook
  split
  · exact update_carries sound _ (fun _ _ => ⟨rfl,rfl⟩) (fun _ _ => rfl)
  · rw [quiet]
    exact sound.refl _

theorem addedOutput_of_output {content : Content} (stdout : ∀ name text, content = .stream name text → name = "stdout") :
    addedOutput content = output content := by
  cases content with
  | stream name text => simp only [addedOutput,output,stdout name text rfl,↓reduceIte]
  | _ => rfl

theorem quiet_of_output {content : Content} (quiet : output content = none) : addedOutput content = none := by
  cases content with
  | stream name text => cases quiet
  | _ => exact quiet

/-- The notebook once an output has arrived for the cell. -/
theorem updateNotebook_output {editor : NotebookEditor} (distinct : Distinct editor) {target : ICell}
    (member : target ∈ editor.cells) {content : Content} {out : Json} (added : addedOutput content = some out) :
    updateNotebook ⟨target.id,content⟩ editor =
      { editor with
        cells := editor.cells.map (fun cell =>
          if cell.id = target.id then (push out target editor.arrays).1 else cell)
        arrays := (push out target editor.arrays).2 } := by
  unfold updateNotebook
  split
  · next same =>
    dsimp only at same
    subst same
    cases added
  · rw [added]
    dsimp only [NotebookEditor.update]
    rw [updateCells_distinct distinct member]

theorem mem_updateNotebook {editor : NotebookEditor} {message : Message} {cell : ICell} (member : cell ∈ editor.cells)
    (other : cell.id ≠ message.msgId) : cell ∈ (updateNotebook message editor).cells := by
  unfold updateNotebook
  split
  · exact mem_updateCells member other _
  · split
    · exact mem_updateCells member other _
    · exact member

/-- The latest run of a cell is the one it was before the message arrived, possibly with the message. -/
theorem latest_arrived {served later : List Run} {run arrived last : Run} {cellId : String}
    (same : arrived.cellId = run.cellId) (isLast : last ∈ latest (served ++ arrived :: later) cellId) :
    last ∈ latest (served ++ run :: later) cellId ∨
      last = arrived ∧ run.cellId = cellId ∧ run ∈ latest (served ++ run :: later) cellId := by
  rw [← List.singleton_append,latest_append,latest_append,latest_single] at isLast ⊢
  cases newer : latest later cellId with
  | some run =>
    rw [newer] at isLast
    exact .inl isLast
  | none =>
    rw [newer] at isLast
    by_cases own : run.cellId = cellId
    · rw [if_pos (same.trans own)] at isLast
      obtain rfl := Option.some.inj isLast
      refine .inr ⟨rfl,own,?_⟩
      rw [if_pos own]
      rfl
    · rw [if_neg (by rwa [same])] at isLast
      rw [if_neg own]
      exact .inl isLast

theorem Inv.arrived (inv : Inv page) {run arrived : Run} {later : List Run} (served : page.waiting = run :: later)
    (same : arrived.cellId = run.cellId)
    (quiet : ∀ cell ∈ page.editor.cells, cell.id = run.cellId → arrived.outputs = run.outputs) :
    Inv { page with waiting := arrived :: later } where
  editing := inv.editing
  sound := inv.sound
  known := by
    have known := inv.known
    simp only [Page.runs,served,List.forall_mem_append,List.forall_mem_cons] at known ⊢
    exact ⟨known.1,same ▸ known.2.1,known.2.2⟩
  holds := by
    intro cell member last isLast
    have before := inv.holds cell member
    rw [Page.runs,served] at before
    rcases latest_arrived same isLast with old | ⟨rfl,own,isRun⟩
    · exact before last old
    · rw [quiet cell member own.symm]
      exact before run isRun

/-- The output that arrives is pushed to the one cell it belongs to. -/
theorem Inv.pushed (inv : Inv page) {run : Run} {later : List Run} (served : page.waiting = run :: later)
    {target : ICell} (member : target ∈ page.editor.cells) (own : target.id = run.cellId) {content : Content} {out : Json}
    (isOutput : output content = some out) (added : addedOutput content = some out)
    (alone : ∀ other ∈ later, other.cellId ≠ run.cellId) (unshared : Unshared page.editor run.cellId) :
    Inv { page with
      editor := updateNotebook ⟨run.cellId,content⟩ page.editor
      waiting := run.receive content :: later } := by
  have isRun : run ∈ latest page.runs target.id := by
    rw [Page.runs,served,own]
    exact latest_alone page.served alone
  obtain ⟨some,shows⟩ := inv.holds target member run isRun
  obtain ⟨array,here⟩ := Option.isSome_iff_exists.mp some
  obtain ⟨pushes,stays,valid⟩ := push_shown out here (inv.sound.cells target member array here)
  have editing := updateNotebook_inv inv.editing ⟨run.cellId,content⟩
  have editor : updateNotebook ⟨run.cellId,content⟩ page.editor =
      { page.editor with
        cells := page.editor.cells.map (fun cell =>
          if cell.id = target.id then (push out target page.editor.arrays).1 else cell)
        arrays := (push out target page.editor.arrays).2 } := by
    rw [← own]
    exact updateNotebook_output inv.editing.distinct member added
  rw [editor] at editing ⊢
  refine ⟨editing,⟨?_,?_⟩,?_,?_⟩
  · intro cell there
    obtain ⟨old,oldMember,rfl⟩ := List.mem_map.mp there
    split_ifs
    · exact valid
    · exact push_valid out (inv.sound.cells old oldMember)
  · intro cell copied
    exact push_valid out (inv.sound.copied cell copied)
  · have known := inv.known
    simp only [Page.runs,served,List.forall_mem_append,List.forall_mem_cons] at known ⊢
    exact known
  · intro cell there last isLast
    obtain ⟨old,oldMember,rfl⟩ := List.mem_map.mp there
    by_cases here : old.id = target.id
    · simp only [if_pos here,push_id] at isLast ⊢
      refine ⟨stays,?_⟩
      have isArrived : last = run.receive content := by
        have arrived := @latest_alone page.served (run.receive content) later alone
        rw [Page.runs,own] at isLast
        exact Option.some.inj (isLast.symm.trans arrived)
      rw [isArrived,pushes,shows]
      simp [Run.receive,Run.outputs,isOutput]
    · simp only [if_neg here] at isLast ⊢
      have isOld : last ∈ latest page.runs old.id := by
        rw [Page.runs,served]
        refine (latest_arrived (receive_cellId ..) isLast).resolve_right ?_
        rintro ⟨-,same,-⟩
        exact here (same.symm.trans own.symm)
      obtain ⟨isSome,same⟩ := inv.holds old oldMember last isOld
      refine ⟨isSome,?_⟩
      rw [push_other out (inv.sound.cells old oldMember)]
      · exact same
      · intro shows
        exact unshared target member own shows old oldMember (own ▸ here)

/-- The message of a run that has a cell pushes its output, and no other message has one to push. -/
theorem arrive_cases {run : Run} {later : List Run} {content : Content} (served : page.waiting = run :: later)
    (good : Good page (.arrive content)) :
    (∃ target ∈ page.editor.cells, ∃ out, target.id = run.cellId ∧ output content = some out ∧
      addedOutput content = some out ∧ (∀ other ∈ later, other.cellId ≠ run.cellId) ∧
        Unshared page.editor run.cellId) ∨
    output content = none ∨ ∀ cell ∈ page.editor.cells, cell.id ≠ run.cellId := by
  simp only [Good,served] at good
  cases isOutput : output content with
  | none => exact .inr (.inl rfl)
  | some out =>
    by_cases here : ∃ cell ∈ page.editor.cells, cell.id = run.cellId
    · obtain ⟨stdout,alone,unshared⟩ := good (by rw [isOutput]; rfl) here
      obtain ⟨target,member,own⟩ := here
      exact .inl ⟨target,member,out,own,rfl,(addedOutput_of_output stdout).trans isOutput,alone,unshared⟩
    · refine .inr (.inr ?_)
      intro cell member own
      exact here ⟨cell,member,own⟩

theorem updateNotebook_absent {editor : NotebookEditor} {cellId : String}
    (absent : ∀ cell ∈ editor.cells, cell.id ≠ cellId) (content : Content) :
    updateNotebook ⟨cellId,content⟩ editor = editor := by
  unfold updateNotebook
  split
  · simp only [NotebookEditor.update,updateCells_absent absent]
  · split
    · simp only [NotebookEditor.update,updateCells_absent absent]
    · rfl

theorem arrive_keeps (inv : Inv page) {content : Content} (good : Good page (.arrive content)) :
    Inv (step page (.arrive content)).1 := by
  cases served : page.waiting with
  | nil =>
    simp only [step,served]
    exact inv
  | cons run later =>
    simp only [step,served]
    rcases arrive_cases served good with ⟨target,member,out,own,isOutput,added,alone,unshared⟩ | quiet | absent
    · exact inv.pushed served member own isOutput added alone unshared
    · have arrived : Inv { page with waiting := run.receive content :: later } := by
        apply inv.arrived served (receive_cellId run content)
        intro _ _ _
        simp [Run.receive,Run.outputs,quiet]
      apply arrived.carried (quiet_carries inv.sound (quiet_of_output quiet))
      · intro uuid member
        cases member
      · exact updateNotebook_inv inv.editing _
    · rw [updateNotebook_absent absent]
      apply inv.arrived served (receive_cellId run content)
      intro cell member own
      exact absurd own (absent cell member)

theorem arrive_leavesOthers (inv : Inv page) {content : Content} (good : Good page (.arrive content)) :
    LeavesOthers page content := by
  intro run served cell member other
  obtain ⟨later,served⟩ := List.head?_eq_some_iff.mp served
  simp only [step,served]
  refine ⟨mem_updateNotebook member other,?_⟩
  rcases arrive_cases served good with ⟨target,here,out,own,-,added,-,unshared⟩ | quiet | absent
  · rw [← own,updateNotebook_output inv.editing.distinct here added]
    apply push_other out (inv.sound.cells cell member)
    intro shows
    exact unshared target here own shows cell member other
  · exact shown_grown (inv.sound.cells cell member) (quiet_carries inv.sound (quiet_of_output quiet)).arrays
  · rw [updateNotebook_absent absent]

/-! ## Whole runs -/

theorem step_keeps (page : Page) (e : Event) (inv : Inv page) (good : Good page e) : Inv (step page e).1 := by
  cases e with
  | edit e connected => exact edit_keeps inv good
  | arrive content => exact arrive_keeps inv good
  | finish =>
    cases served : page.waiting with
    | nil =>
      simp only [step,served]
      exact inv
    | cons run later =>
      have same : (step page .finish).1.runs = page.runs := by
        simp [step,Page.runs,served]
      refine ⟨?_,?_,?_,?_⟩
      · simpa only [step,served] using inv.editing
      · simpa only [step,served] using inv.sound
      · rw [same]
        simpa only [step,served] using inv.known
      · rw [same]
        simpa only [step,served] using inv.holds

end

theorem inv_opened (cells : Option (List SavedCell)) {uuidv4 : Nat → String}
    (unrepeated : (CellEditing.uuids (.load cells uuidv4)).Nodup) : Inv (opened cells uuidv4) where
  editing := load_inv inv_mounted unrepeated
  sound := by
    refine ⟨?_,?_⟩
    · intro cell member array here
      obtain ⟨⟨saved,i⟩,there,rfl⟩ := List.mem_map.mp member
      obtain ⟨_,_,rfl⟩ := Option.map_eq_some_iff.mp here
      have below := List.snd_lt_of_mem_zipIdx there
      simp only [opened,FetchFileData,mounted,List.length_nil,Nat.zero_add,List.nil_append,List.length_map] at below ⊢
      exact below
    · intro cell copied
      cases copied
  known := by
    intro run member
    cases member
  holds := by
    intro cell _ run last
    cases last

/-- In a run of edits, submissions and messages from any notebook, every cell shows at
    any time what has arrived for its latest run, and no message changes another cell. -/
theorem outputs_shown (cells : Option (List SavedCell)) (uuidv4 : Nat → String)
    (unrepeated : (CellEditing.uuids (.load cells uuidv4)).Nodup) (events : List Event)
    (good : Meets step Good (opened cells uuidv4) events) :
    let page := (run step (opened cells uuidv4) events).1
    Shows page ∧ ∀ content, Good page (.arrive content) → LeavesOthers page content := by
  have inv : Inv (run step (opened cells uuidv4) events).1 := by
    apply (@run_keeps _ _ _ step Good Inv (fun _ => True) _ _ (inv_opened cells unrepeated) _ good).1
    intro page e inv good
    exact ⟨step_keeps page e inv good,trivial⟩
  refine ⟨inv.shows,?_⟩
  intro content good
  exact arrive_leavesOthers inv good

/-- A cell that prints is submitted, and shows what it has printed. -/
theorem printed_shown : Shows (run step (opened none (fun _ => "a"))
    [.edit (.submitCell "a") true,.arrive (.stream "stdout" "1"),.finish]).1 :=
  (outputs_shown none (fun _ => "a") (by decide) [.edit (.submitCell "a") true,.arrive (.stream "stdout" "1"),.finish]
    (by
      refine ⟨⟨⟨⟨List.nodup_nil,by simp [CellEditing.uuids]⟩,trivial⟩,.inl rfl⟩,?_,trivial,trivial⟩
      intro _ _
      refine ⟨?_,?_,?_⟩
      · rintro name text ⟨⟩
        rfl
      · intro other member
        cases member
      · intro cell member _ shows
        obtain rfl := List.mem_singleton.mp member
        exact absurd rfl shows)).1

/-- A cell is copied and pasted while it prints: what it prints next is also shown by the copy. -/
theorem pasted_changed :
    ¬ LeavesOthers (run step (opened none (fun _ => "a"))
      [.edit (.submitCell "a") true,.arrive (.stream "stdout" "1"),.edit (.copyCellByIndex 0) true,
        .edit (.pasteCell "b") true]).1 (.stream "stdout" "2") := by
  intro leaves
  have kept := leaves ⟨"a",[.stream "stdout" "1"]⟩ rfl ⟨"code","b",-1,"",some 2,none,false⟩ (by decide) (by decide)
  exact absurd kept.2 (by decide)

end Zasper.CellOutputs
