import Zasper.CellValues

/-!
# Running all cells

All code cells of a notebook are submitted at once. The answers of the kernel come back
with the ids of the cells, in whatever order the kernel gives them: each code cell ends up
with the answers to its own request, and nothing else of the notebook changes
(`answers_shown`).
-/
namespace Zasper.RunAll
open Zasper.JsonValues Zasper.NotebookCells Zasper.Runs Zasper.CellValues
open Zasper.CellEditing hiding Inv Good
open Zasper.CellOutputs hiding Event step Inv Good Page
set_option linter.unusedSimpArgs false

/-- The code of a request, and the id that its answers name. -/
structure ExecuteRequest where
  code : String
  msgId : String

structure Page where
  editor : NotebookEditor
  /-- What was sent to the kernel. -/
  sent : List ExecuteRequest

/-- The cell is cleared, also where the kernel cannot be reached. -/
def submitCell (connected : Bool) (source cellId : String) (page : Page) : Page where
  editor := NotebookCells.submitCell cellId page.editor
  sent := if connected then page.sent ++ [⟨source,cellId⟩] else page.sent

def codeCells (editor : NotebookEditor) : List ICell := editor.cells.filter (fun cell => cell.cellType = "code")

def submitAllCellsForExecution (session connected : Bool) (page : Page) : Page :=
  if session then
    (codeCells page.editor).foldl (fun page cell => submitCell connected cell.source cell.id page) page
  else page

/-- The notebook once the messages have arrived. -/
def receive (messages : List Message) (editor : NotebookEditor) : NotebookEditor :=
  messages.foldl (fun editor message => updateNotebook message editor) editor

/-! ## Outputs of one cell -/

/-- The array of the cell with the id is neither that of another cell nor that of the copied one. -/
def Owns (editor : NotebookEditor) (cellId : String) : Prop :=
  ∀ cell ∈ editor.cells, cell.id = cellId →
    (∀ other ∈ editor.cells, other.id ≠ cell.id → other.outputs ≠ cell.outputs) ∧
    ∀ copied ∈ editor.copiedCell, copied.outputs ≠ cell.outputs

/-- The cells with the ids have arrays of their own. -/
structure Clear (cellIds : List String) (editor : NotebookEditor) : Prop where
  inv : CellEditing.Inv editor
  sound : Sound editor
  owns : ∀ cellId ∈ cellIds, Owns editor cellId

section
variable {editor after : NotebookEditor}

theorem owns_of_same {cellId : String}
    (cells : after.cells.map (fun cell => (cell.id,cell.outputs)) = editor.cells.map (fun cell => (cell.id,cell.outputs)))
    (copied : after.copiedCell = editor.copiedCell) (owns : Owns editor cellId) : Owns after cellId := by
  have before : ∀ cell ∈ after.cells, ∃ old ∈ editor.cells, old.id = cell.id ∧ old.outputs = cell.outputs := by
    intro cell member
    have there := List.mem_map_of_mem (f := fun cell => (cell.id,cell.outputs)) member
    rw [cells] at there
    obtain ⟨old,here,same⟩ := List.mem_map.mp there
    exact ⟨old,here,congrArg Prod.fst same,congrArg Prod.snd same⟩
  intro cell member isCell
  obtain ⟨old,here,id,outputs⟩ := before cell member
  obtain ⟨others,copy⟩ := owns old here (id.trans isCell)
  refine ⟨?_,?_⟩
  · intro other there different
    obtain ⟨oldOther,hereOther,idOther,outputsOther⟩ := before other there
    rw [← outputs,← outputsOther]
    apply others oldOther hereOther
    rwa [id,idOther]
  · rw [copied,← outputs]
    exact copy

/-- A cell that gets a new array owns it, and the others own theirs as before. -/
theorem owns_of_renewed (sound : Sound editor) {target new : ICell} (outputs : new.outputs = some editor.arrays.length)
    (cells : after.cells = editor.cells.map (fun cell => if cell.id = target.id then new else cell))
    (copied : after.copiedCell = editor.copiedCell) {cellId : String} (owns : cellId = target.id ∨ Owns editor cellId) :
    Owns after cellId := by
  have fresh : ∀ cell, Valid editor.arrays cell → cell.outputs ≠ new.outputs := by
    intro cell valid same
    exact lt_irrefl _ (valid _ (same.trans outputs))
  intro cell member isCell
  rw [cells] at member ⊢
  rw [copied]
  obtain ⟨old,here,rfl⟩ := List.mem_map.mp member
  by_cases own : old.id = target.id
  · rw [if_pos own] at isCell ⊢
    refine ⟨?_,fun copy there => fresh copy (sound.copied copy there)⟩
    intro other there different
    obtain ⟨oldOther,hereOther,rfl⟩ := List.mem_map.mp there
    split_ifs at different ⊢
    · exact absurd rfl different
    · exact fresh oldOther (sound.cells oldOther hereOther)
  · rw [if_neg own] at isCell ⊢
    obtain ⟨others,copy⟩ := owns.resolve_left (fun same => own (isCell.trans same)) old here isCell
    refine ⟨?_,copy⟩
    intro other there different
    obtain ⟨oldOther,hereOther,rfl⟩ := List.mem_map.mp there
    split_ifs at different ⊢
    · exact (fresh old (sound.cells old here)).symm
    · exact others oldOther hereOther different

end

/-! ## Submissions and messages -/

section
variable {editor : NotebookEditor} {cellIds : List String}

theorem Clear.submitted (clear : Clear cellIds editor) {target : ICell} (member : target ∈ editor.cells) :
    Clear (cellIds ++ [target.id]) (NotebookCells.submitCell target.id editor) where
  inv := (submitCell_same ..).inv clear.inv clear.inv.nonneg
  sound := submitCell_sound clear.inv.distinct clear.sound _
  owns := by
    intro cellId owned
    have cells : (NotebookCells.submitCell target.id editor).cells =
        editor.cells.map (fun cell => if cell.id = target.id then (NotebookCells.submitted target editor.arrays).1 else cell) := by
      rw [NotebookCells.submitCell,NotebookEditor.update,updateCells_distinct clear.inv.distinct member]
    apply owns_of_renewed clear.sound _ cells
    · rfl
    · rcases List.mem_append.mp owned with old | new
      · exact .inr (clear.owns cellId old)
      · exact .inl (List.mem_singleton.mp new)
    · rfl

theorem push_cases (out : Json) (cell : ICell) (arrays : List (List Json)) :
    (push out cell arrays).1 = cell ∨ (push out cell arrays).1.outputs = some arrays.length := by
  unfold push
  split
  · exact .inl rfl
  · split_ifs
    · exact .inr rfl
    · exact .inl rfl

theorem updateNotebook_owns (distinct : Distinct editor) (sound : Sound editor) (message : Message) {cellId : String}
    (owns : Owns editor cellId) : Owns (updateNotebook message editor) cellId := by
  obtain ⟨msgId,content⟩ := message
  cases added : addedOutput content with
  | none =>
    cases content with
    | executeInput executionCount => exact owns_of_same (map_updateCells (fun _ _ => rfl) ..) rfl owns
    | _ => simpa only [updateNotebook,added] using owns
  | some out =>
    by_cases here : ∃ target ∈ editor.cells, target.id = msgId
    · obtain ⟨target,member,rfl⟩ := here
      rw [updateNotebook_output distinct member added]
      rcases push_cases out target editor.arrays with same | renewed
      · apply owns_of_same _ _ owns
        · simp only [same,List.map_map]
          apply List.map_congr_left
          intro cell there
          dsimp only [Function.comp_apply]
          split_ifs with isTarget
          · rw [List.inj_on_of_nodup_map distinct there member isTarget]
          · rfl
        · rfl
      · apply owns_of_renewed sound renewed
        · rfl
        · rfl
        · exact .inr owns
    · rw [updateNotebook_absent (fun cell member same => here ⟨cell,member,same⟩)]
      exact owns

/-- A message for a cell that owns its outputs is seen by that cell alone. -/
theorem Clear.arrived (clear : Clear cellIds editor) {message : Message} (own : message.msgId ∈ cellIds) :
    Clear cellIds (updateNotebook message editor) ∧
      notebookOf (updateNotebook message editor) =
        (notebookOf editor).change message.msgId (Cell.receive message.content) := by
  refine ⟨⟨updateNotebook_inv clear.inv message,updateNotebook_sound clear.inv.distinct clear.sound message,?_⟩,?_⟩
  · intro cellId owned
    exact updateNotebook_owns clear.inv.distinct clear.sound message (clear.owns cellId owned)
  · refine (updateNotebook_seen_iff clear.inv.distinct clear.sound message).mpr ?_
    intro _ cell member isCell _
    exact clear.owns _ own cell member isCell

theorem submitCell_there {cellId : String} (there : ∃ target ∈ editor.cells, target.id = cellId) (submits : String) :
    ∃ target ∈ (NotebookCells.submitCell submits editor).cells, target.id = cellId := by
  have ids := (submitCell_same submits editor).ids
  obtain ⟨target,member,rfl⟩ := there
  exact List.mem_map.mp (ids ▸ List.mem_map_of_mem member)

/-- Cells are submitted one after the other. -/
theorem submitted_all (connected : Bool) {cells : List ICell} {page : Page} (clear : Clear cellIds page.editor)
    (there : ∀ cell ∈ cells, ∃ target ∈ page.editor.cells, target.id = cell.id) :
    let after := cells.foldl (fun page cell => submitCell connected cell.source cell.id page) page
    Clear (cellIds ++ cells.map ICell.id) after.editor ∧
      notebookOf after.editor =
        (cells.map ICell.id).foldl (fun notebook cellId => notebook.submit cellId) (notebookOf page.editor) ∧
      after.sent = page.sent ++ if connected then cells.map (fun cell => ⟨cell.source,cell.id⟩) else [] := by
  induction cells generalizing page cellIds with
  | nil => simpa using clear
  | cons cell cells ih =>
    obtain ⟨⟨target,member,id⟩,later⟩ := List.forall_mem_cons.mp there
    have submitted := clear.submitted member
    rw [id] at submitted
    obtain ⟨cleared,seen,sent⟩ := @ih _ (submitCell connected cell.source cell.id page) submitted
      (fun other here => submitCell_there (later other here) cell.id)
    refine ⟨?_,?_,?_⟩
    · simpa only [List.foldl_cons,List.map_cons,List.append_assoc,List.singleton_append] using cleared
    · simpa only [List.map_cons,List.foldl_cons,submitCell,submitCell_seen clear.inv.distinct clear.sound] using seen
    · rw [List.foldl_cons,sent]
      cases connected <;> simp [submitCell]

/-- Messages arrive for cells that own their outputs. -/
theorem received_all {messages : List Message} (clear : Clear cellIds editor)
    (own : ∀ message ∈ messages, message.msgId ∈ cellIds) :
    notebookOf (receive messages editor) =
      messages.foldl (fun notebook message => notebook.change message.msgId (Cell.receive message.content))
        (notebookOf editor) := by
  induction messages generalizing editor with
  | nil => rfl
  | cons message messages ih =>
    obtain ⟨here,later⟩ := List.forall_mem_cons.mp own
    obtain ⟨arrived,seen⟩ := clear.arrived here
    rw [List.foldl_cons,← seen]
    exact ih arrived later

end

/-! ## The notebook of values -/

theorem foldl_submit (cellIds : List String) (notebook : Notebook) :
    cellIds.foldl (fun notebook cellId => notebook.submit cellId) notebook =
      { notebook with
        cells := notebook.cells.map (fun cell => if cell.id ∈ cellIds then cell.submitted else cell) } := by
  induction cellIds generalizing notebook with
  | nil => simp
  | cons cellId cellIds ih =>
    rw [List.foldl_cons,ih]
    simp only [Notebook.submit,Notebook.change,List.map_map,Notebook.mk.injEq,and_self,and_true]
    apply List.map_congr_left
    intro cell _
    simp only [Function.comp_apply,List.mem_cons]
    by_cases own : cell.id = cellId
    · have id : cell.submitted.id = cell.id := rfl
      simp only [own,↓reduceIte,true_or,id]
      split_ifs <;> rfl
    · simp only [own,↓reduceIte,false_or]

/-- What the cell has become of once the messages for it have arrived. -/
def answered (messages : List Message) (cell : Cell) : Cell :=
  (messages.filter (fun message => message.msgId = cell.id)).foldl (fun cell message => cell.receive message.content) cell

theorem receive_id (content : Content) (cell : Cell) : (cell.receive content).id = cell.id := by
  unfold Cell.receive
  split
  · rfl
  · split <;> rfl

theorem foldl_change (messages : List Message) (notebook : Notebook) :
    messages.foldl (fun notebook message => notebook.change message.msgId (Cell.receive message.content)) notebook =
      { notebook with cells := notebook.cells.map (answered messages) } := by
  induction messages generalizing notebook with
  | nil =>
    have same : answered [] = id := rfl
    rw [List.foldl_nil,same,List.map_id]
  | cons message messages ih =>
    rw [List.foldl_cons,ih]
    simp only [Notebook.change,List.map_map,Notebook.mk.injEq,and_self,and_true]
    apply List.map_congr_left
    intro cell _
    simp only [Function.comp_apply,answered,List.filter_cons,decide_eq_true_eq]
    by_cases own : cell.id = message.msgId
    · simp only [own,↓reduceIte,List.foldl_cons,receive_id]
    · simp only [own,Ne.symm own,↓reduceIte]

/-! ## All cells -/

/-- The cell once its own request is answered. -/
def ran (messages : List Message) (cell : Cell) : Cell :=
  if cell.cellType = "code" then answered messages cell.submitted else cell

/-- All cells are run in a notebook after any run of edits. The requests are those of the
    code cells, each with the id of its own. Whatever the order in which the kernel answers
    them, each code cell shows the answers to its request in their order and nothing else,
    and the rest of the notebook is as it was. -/
theorem answers_shown (events : List Event) (good : Meets step CellEditing.Good mounted events) (connected : Bool)
    (messages : List Message) :
    let before := (run step mounted events).1
    let page := submitAllCellsForExecution true connected ⟨before,[]⟩
    page.sent = (if connected then (codeCells before).map (fun cell => ⟨cell.source,cell.id⟩) else []) ∧
    (page.sent.map ExecuteRequest.msgId).Nodup ∧
    ((∀ message ∈ messages, message.msgId ∈ (codeCells before).map ICell.id) →
      notebookOf (receive messages page.editor) =
        { notebookOf before with cells := (notebookOf before).cells.map (ran messages) }) := by
  intro before page
  have clear : Clear [] before := by
    obtain ⟨inv,sound⟩ := reached_inv events good
    exact ⟨inv,sound,fun _ none => nomatch none⟩
  have there : ∀ cell ∈ codeCells before, ∃ target ∈ before.cells, target.id = cell.id :=
    fun cell member => ⟨cell,(List.mem_filter.mp member).1,rfl⟩
  obtain ⟨cleared,seen,sent⟩ := @submitted_all [] connected (codeCells before) ⟨before,[]⟩ clear there
  have distinct : ((codeCells before).map ICell.id).Nodup := clear.inv.distinct.sublist (List.filter_sublist.map _)
  have isCode : ∀ cell ∈ before.cells, cell.id ∈ (codeCells before).map ICell.id ↔ cell.cellType = "code" := by
    intro cell member
    constructor
    · intro inside
      obtain ⟨other,isOther,same⟩ := List.mem_map.mp inside
      obtain ⟨here,code⟩ := List.mem_filter.mp isOther
      rw [← List.inj_on_of_nodup_map clear.inv.distinct here member same]
      exact of_decide_eq_true code
    · intro code
      exact List.mem_map_of_mem (List.mem_filter.mpr ⟨member,decide_eq_true code⟩)
  refine ⟨sent,?_,?_⟩
  · have isSent : page.sent = if connected then (codeCells before).map (fun cell => ⟨cell.source,cell.id⟩) else [] := sent
    rw [isSent]
    cases connected
    · exact List.nodup_nil
    · simpa only [↓reduceIte,List.map_map,Function.comp_def] using distinct
  · intro own
    have received := received_all cleared own
    have isPage : page = (codeCells before).foldl (fun page cell => submitCell connected cell.source cell.id page) ⟨before,[]⟩ := rfl
    rw [isPage,received,seen,foldl_submit,foldl_change]
    simp only [List.map_map,Notebook.mk.injEq,and_self,and_true]
    apply List.map_congr_left
    intro value member
    obtain ⟨cell,here,rfl⟩ := List.mem_map.mp member
    have id : (valueOf before.arrays cell).id = cell.id := rfl
    have cellType : (valueOf before.arrays cell).cellType = cell.cellType := rfl
    simp only [Function.comp_apply,ran,id,cellType,isCode cell here]
    split_ifs with code
    · rfl
    · have none : messages.filter (fun message => message.msgId = cell.id) = [] := by
        rw [List.filter_eq_nil_iff]
        intro message isMessage same
        apply code
        rw [← isCode cell here,← of_decide_eq_true same]
        exact own message isMessage
      simp only [answered,id,none,List.foldl_nil]

/-- Two cells of code with a text in between. -/
def threeCells : List Event :=
  [.load (some [⟨"code",0,"1 + 1",some [],none⟩,⟨"markdown",0,"text",some [],none⟩,⟨"code",0,"1 + 2",some [],none⟩])
    (fun i => if i = 0 then "a" else if i = 1 then "b" else "c")]

/-- The answers to the second cell are among those to the first. -/
def mixedAnswers : List Message :=
  [⟨"a",.executeInput 1⟩,⟨"c",.executeInput 2⟩,⟨"c",.executeResult (.str "3")⟩,⟨"a",.executeResult (.str "2")⟩,⟨"c",.status⟩]

theorem mixed_shown :
    let page := submitAllCellsForExecution true true ⟨(run step mounted threeCells).1,[]⟩
    page.sent = [⟨"1 + 1","a"⟩,⟨"1 + 2","c"⟩] ∧
    (notebookOf (receive mixedAnswers page.editor)).cells.map (fun cell => (cell.executionCount,cell.outputs)) =
      [(1,some [.obj [("data",.str "2"),("output_type",.str "execute_result")]]),(0,some []),
        (2,some [.obj [("data",.str "3"),("output_type",.str "execute_result")]])] := by
  obtain ⟨sent,-,shows⟩ := answers_shown threeCells
    ⟨⟨⟨by decide,by simp [mounted]⟩,trivial⟩,trivial⟩ true mixedAnswers
  refine ⟨sent,?_⟩
  rw [shows (by decide)]
  rfl

end Zasper.RunAll
