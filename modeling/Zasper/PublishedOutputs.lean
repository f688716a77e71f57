import Mathlib.Data.List.Perm.Basic
import Zasper.RunAll

/-!
# Published outputs

The page behind its connections to one kernel. What the kernel publishes goes to every
connection that is open, and what comes in on any of them is added to the notebook; a
reconnection opens another one and closes none. After all cells were run, every output is
there once, in its cell or on its way to it, if and only if each was published while one
connection was open, and none is closed before what it carries is read (`published_once_iff`).
-/
namespace Zasper.PublishedOutputs
open Zasper.JsonValues Zasper.NotebookCells Zasper.Runs Zasper.CellValues Zasper.RunAll
open Zasper.CellEditing hiding Inv Good
open Zasper.CellOutputs hiding Event step Inv Good Page
set_option linter.unusedSimpArgs false

structure Connection where
  isOpen : Bool
  /-- What is on its way, in the order in which it was published. -/
  waiting : List Message

structure Page where
  editor : NotebookEditor
  /-- The latest one last. -/
  connections : List Connection
  published : List Message

inductive Event where
  /-- A connection for a new session, or the one that `reConnectKernel` opens. -/
  | connect
  | publish (message : Message)
  /-- The next message of a connection is read. -/
  | arrive (connection : Nat)
  | close (connection : Nat)

def Connection.hear (message : Message) (c : Connection) : Connection :=
  if c.isOpen then { c with waiting := c.waiting ++ [message] } else c

def step (page : Page) : Event → Page × Unit
  | .connect => ({ page with connections := page.connections ++ [⟨true,[]⟩] },())
  | .publish message =>
    ({ page with
        connections := page.connections.map (Connection.hear message)
        published := page.published ++ [message] },())
  | .arrive i =>
    match page.connections[i]? with
    | some ⟨isOpen,message :: waiting⟩ =>
      ({ page with
          editor := updateNotebook message page.editor
          connections := page.connections.set i ⟨isOpen,waiting⟩ },())
    | _ => (page,())
  | .close i => ({ page with connections := page.connections.set i ⟨false,[]⟩ },())

/-! ## What is there once -/

/-- The outputs that messages add to the cell with the id. -/
def outputsFor (cellId : String) (messages : List Message) : List Json :=
  (messages.filter (fun message => message.msgId = cellId)).filterMap (fun message => addedOutput message.content)

def shownFor (editor : NotebookEditor) (cellId : String) : Option (List Json) :=
  ((notebookOf editor).cells.find? (fun cell => cell.id = cellId)).bind Cell.outputs

/-- What is read and what waits on any connection is what was published. -/
def Once (cellIds : List String) (page : Page) : Prop :=
  ∀ cellId ∈ cellIds, ∃ outputs, shownFor page.editor cellId = some outputs ∧
    (outputs ++ outputsFor cellId (page.connections.flatMap Connection.waiting)).Perm (outputsFor cellId page.published)

/-- Outputs are published to one connection, and are read before it is closed. -/
def Single (page : Page) : Event → Prop
  | .publish message => (addedOutput message.content).isSome → page.connections.countP Connection.isOpen = 1
  | .close i => ∀ c ∈ page.connections[i]?, ∀ message ∈ c.waiting, addedOutput message.content = none
  | _ => True

/-! ## Outputs of messages -/

section
variable {cellId : String}

theorem outputsFor_append (cellId : String) (first second : List Message) :
    outputsFor cellId (first ++ second) = outputsFor cellId first ++ outputsFor cellId second := by
  simp [outputsFor]

theorem outputsFor_perm {first second : List Message} (same : first.Perm second) (cellId : String) :
    (outputsFor cellId first).Perm (outputsFor cellId second) := (same.filter _).filterMap _

theorem outputsFor_one (cellId : String) (message : Message) :
    outputsFor cellId [message] = if message.msgId = cellId then (addedOutput message.content).toList else [] := by
  by_cases own : message.msgId = cellId
  · cases added : addedOutput message.content <;> simp [outputsFor,own,added]
  · simp [outputsFor,own]

theorem outputsFor_replicate (cellId : String) (n : Nat) (message : Message) :
    (outputsFor cellId (List.replicate n message)).length = n * (outputsFor cellId [message]).length := by
  induction n with
  | zero => simp [outputsFor]
  | succ n ih =>
    rw [List.replicate_succ',outputsFor_append,List.length_append,ih,Nat.succ_mul]

theorem find?_map_id {cells : List Cell} {f : Cell → Cell} (ids : ∀ cell, (f cell).id = cell.id) (cellId : String) :
    (cells.map f).find? (fun cell => cell.id = cellId) = (cells.find? (fun cell => cell.id = cellId)).map f := by
  rw [List.find?_map]
  simp only [Function.comp_def,ids]

/-- What a cell shows once a message has arrived. -/
theorem shownFor_change {notebook : Notebook} (message : Message) (cellId : String) :
    ((notebook.change message.msgId (Cell.receive message.content)).cells.find? (fun cell => cell.id = cellId)).bind
        Cell.outputs =
      ((notebook.cells.find? (fun cell => cell.id = cellId)).bind Cell.outputs).map
        (fun outputs => outputs ++ outputsFor cellId [message]) := by
  have ids : ∀ cell : Cell, (if cell.id = message.msgId then cell.receive message.content else cell).id = cell.id := by
    intro cell
    split_ifs
    · exact receive_id ..
    · rfl
  simp only [Notebook.change,find?_map_id ids,outputsFor_one]
  cases found : notebook.cells.find? (fun cell => cell.id = cellId) with
  | none => rfl
  | some cell =>
    have isCell : cell.id = cellId := by simpa using List.find?_some found
    subst isCell
    by_cases own : message.msgId = cell.id
    · simp only [Option.map_some,Option.bind_some,own,if_true]
      unfold Cell.receive
      split
      · next same => cases cell.outputs <;> simp [same,addedOutput]
      · cases addedOutput message.content <;> cases cell.outputs <;> simp
    · simp only [Option.map_some,Option.bind_some,own,Ne.symm own,if_false]
      cases cell.outputs <;> simp

end

/-! ## Steps -/

section
variable {cellIds : List String} {page : Page}

/-- The messages on their way, and those that were published, answer requests of the cells. -/
structure Grounded (cellIds : List String) (page : Page) : Prop where
  clear : Clear cellIds page.editor
  waiting : ∀ c ∈ page.connections, ∀ message ∈ c.waiting, message.msgId ∈ cellIds

def Answers (cellIds : List String) : Event → Prop
  | .publish message => message.msgId ∈ cellIds
  | _ => True

theorem split_at {connections : List Connection} {i : Nat} {c : Connection} (here : connections[i]? = some c) :
    ∃ front back, connections = front ++ c :: back ∧ ∀ other, connections.set i other = front ++ other :: back := by
  obtain ⟨short,there⟩ := List.getElem?_eq_some_iff.mp here
  refine ⟨connections.take i,connections.drop (i + 1),?_,fun other => ?_⟩
  · rw [← there,List.getElem_cons_drop,List.take_append_drop]
  · rw [List.set_eq_take_append_cons_drop,if_pos short]

theorem shownFor_arrived (clear : Clear cellIds page.editor) {message : Message} (own : message.msgId ∈ cellIds)
    (cellId : String) : shownFor (updateNotebook message page.editor) cellId =
      (shownFor page.editor cellId).map (fun outputs => outputs ++ outputsFor cellId [message]) := by
  rw [shownFor,(clear.arrived own).2]
  exact shownFor_change message cellId

/-- Every connection that is open gets the message. -/
theorem heard (message : Message) (connections : List Connection) :
    ((connections.map (Connection.hear message)).flatMap Connection.waiting).Perm
      (connections.flatMap Connection.waiting ++ List.replicate (connections.countP Connection.isOpen) message) := by
  induction connections with
  | nil => simp
  | cons c connections ih =>
    cases open' : c.isOpen with
    | false =>
      simp only [List.map_cons,List.flatMap_cons,Connection.hear,open',Bool.false_eq_true,if_false,List.append_assoc]
      rw [List.countP_cons_of_neg (by simp [open'])]
      exact ih.append_left _
    | true =>
      simp only [List.map_cons,List.flatMap_cons,Connection.hear,open',if_true,List.append_assoc]
      rw [List.countP_cons_of_pos (by simp [open']),List.replicate_succ]
      exact List.Perm.append_left _ ((ih.cons _).trans List.perm_middle.symm)

def published : Event → List Message
  | .publish message => [message]
  | _ => []

/-- The copies of what is published. -/
def gained (page : Page) : Event → List Message
  | .publish message => List.replicate (page.connections.countP Connection.isOpen) message
  | _ => []

/-- What a connection carries when it is closed. -/
def lost (page : Page) : Event → List Message
  | .close i => (page.connections[i]?.map Connection.waiting).getD []
  | _ => []

theorem step_published (page : Page) (e : Event) : (step page e).1.published = page.published ++ published e := by
  cases e with
  | arrive i =>
    simp only [step,published,List.append_nil]
    split <;> rfl
  | _ => simp [step,published]

/-- What comes in and what is lost, of what is read or waits. -/
theorem balance (grounded : Grounded cellIds page) (e : Event) {cellId : String} {outputs : List Json}
    (shows : shownFor page.editor cellId = some outputs) :
    ∃ after, shownFor (step page e).1.editor cellId = some after ∧
      (after ++ outputsFor cellId ((step page e).1.connections.flatMap Connection.waiting) ++
        outputsFor cellId (lost page e)).Perm
      (outputs ++ outputsFor cellId (page.connections.flatMap Connection.waiting) ++ outputsFor cellId (gained page e)) := by
  have nothing : outputsFor cellId [] = [] := rfl
  cases e with
  | connect => exact ⟨outputs,shows,by simp [step,lost,gained]⟩
  | publish message =>
    refine ⟨outputs,shows,?_⟩
    simp only [step,lost,gained,nothing,List.append_nil,List.append_assoc]
    rw [← outputsFor_append]
    exact (outputsFor_perm (heard message page.connections) cellId).append_left _
  | close i =>
    refine ⟨outputs,shows,?_⟩
    cases here : page.connections[i]? with
    | none => simp [step,lost,gained,here,List.set_eq_of_length_le (List.getElem?_eq_none_iff.mp here)]
    | some c =>
      obtain ⟨front,back,split,set⟩ := split_at here
      simp only [step,lost,gained,here,set,Option.map_some,Option.getD_some,nothing,List.append_nil,List.append_assoc]
      rw [split,← outputsFor_append]
      refine (outputsFor_perm ?_ cellId).append_left _
      simp only [List.flatMap_append,List.flatMap_cons,List.nil_append,List.append_assoc]
      exact List.perm_append_comm.append_left _
  | arrive i =>
    cases here : page.connections[i]? with
    | none => exact ⟨outputs,by simpa [step,here] using shows,by simp [step,lost,gained,here]⟩
    | some c =>
      obtain ⟨isOpen,waiting⟩ := c
      cases waiting with
      | nil => exact ⟨outputs,by simpa [step,here] using shows,by simp [step,lost,gained,here]⟩
      | cons message waiting =>
        obtain ⟨front,back,split,set⟩ := split_at here
        have own : message.msgId ∈ cellIds :=
          grounded.waiting _ (List.mem_of_getElem? here) message List.mem_cons_self
        refine ⟨outputs ++ outputsFor cellId [message],?_,?_⟩
        · simp only [step,here]
          rw [shownFor_arrived grounded.clear own,shows,Option.map_some]
        · simp only [step,lost,gained,here,set,nothing,List.append_nil,List.append_assoc]
          rw [split,← outputsFor_append]
          refine (outputsFor_perm ?_ cellId).append_left _
          simp only [List.flatMap_append,List.flatMap_cons,List.cons_append,List.nil_append]
          exact List.perm_middle.symm

theorem step_grounded (grounded : Grounded cellIds page) {e : Event} (answers : Answers cellIds e) :
    Grounded cellIds (step page e).1 := by
  obtain ⟨clear,waiting⟩ := grounded
  cases e with
  | connect =>
    refine ⟨clear,?_⟩
    simp only [step,List.forall_mem_append,List.forall_mem_singleton]
    exact ⟨waiting,fun _ none => nomatch none⟩
  | publish message =>
    refine ⟨clear,?_⟩
    simp only [step,List.forall_mem_map]
    intro c member
    unfold Connection.hear
    split_ifs
    · exact List.forall_mem_append.mpr ⟨waiting c member,List.forall_mem_singleton.mpr answers⟩
    · exact waiting c member
  | close i =>
    refine ⟨clear,fun c member => ?_⟩
    rcases List.mem_or_eq_of_mem_set member with old | rfl
    · exact waiting c old
    · exact fun _ none => nomatch none
  | arrive i =>
    cases here : page.connections[i]? with
    | none => simpa [step,here] using (⟨clear,waiting⟩ : Grounded cellIds page)
    | some c =>
      obtain ⟨isOpen,carried⟩ := c
      have member := List.mem_of_getElem? here
      cases carried with
      | nil => simpa [step,here] using (⟨clear,waiting⟩ : Grounded cellIds page)
      | cons message carried =>
        obtain ⟨own,rest⟩ := List.forall_mem_cons.mp (waiting _ member)
        simp only [step,here]
        refine ⟨(clear.arrived own).1,fun c there => ?_⟩
        rcases List.mem_or_eq_of_mem_set there with old | rfl
        · exact waiting c old
        · exact rest

theorem single_same {e : Event} (single : Single page e) (cellId : String) :
    outputsFor cellId (lost page e) = [] ∧ outputsFor cellId (gained page e) = outputsFor cellId (published e) := by
  cases e with
  | publish message =>
    refine ⟨rfl,?_⟩
    cases added : addedOutput message.content with
    | none =>
      have quiet : outputsFor cellId [message] = [] := by simp [outputsFor_one,added]
      have copies := outputsFor_replicate cellId (page.connections.countP Connection.isOpen) message
      rw [quiet,List.length_nil,Nat.mul_zero] at copies
      exact (List.eq_nil_of_length_eq_zero copies).trans quiet.symm
    | some out =>
      have one := single (by simp [added])
      simp [gained,published,one]
  | close i =>
    refine ⟨List.filterMap_eq_nil_iff.mpr (fun message member => ?_),rfl⟩
    cases here : page.connections[i]? with
    | none => simp [lost,here] at member
    | some c =>
      simp only [lost,here,Option.map_some,Option.getD_some] at member
      exact single c here message (List.mem_filter.mp member).1
  | _ => exact ⟨rfl,rfl⟩

/-- A step that adds as many outputs as it publishes and loses. -/
theorem single_of_length (grounded : Grounded cellIds page) {e : Event} (answers : Answers cellIds e)
    (fair : ∀ cellId ∈ cellIds, (outputsFor cellId (gained page e)).length =
      (outputsFor cellId (lost page e)).length + (outputsFor cellId (published e)).length) : Single page e := by
  have nothing : ∀ cellId, outputsFor cellId [] = [] := fun _ => rfl
  cases e with
  | publish message =>
    intro adds
    obtain ⟨out,added⟩ := Option.isSome_iff_exists.mp adds
    have copies := fair message.msgId answers
    simpa [gained,lost,published,nothing,outputsFor_replicate,outputsFor_one,added] using copies
  | close i =>
    intro c here message carried
    have kept := fair message.msgId (grounded.waiting c (List.mem_of_getElem? here) message carried)
    simp only [gained,lost,published,Option.mem_def.mp here,Option.map_some,Option.getD_some,nothing,List.length_nil,
      Nat.add_zero] at kept
    by_contra adds
    obtain ⟨out,added⟩ := Option.ne_none_iff_exists'.mp adds
    have there : out ∈ outputsFor message.msgId c.waiting :=
      List.mem_filterMap.mpr ⟨message,List.mem_filter.mpr ⟨carried,by simp⟩,added⟩
    simp [List.eq_nil_of_length_eq_zero kept.symm] at there
  | _ => trivial

theorem once_step_iff (grounded : Grounded cellIds page) (once : Once cellIds page) {e : Event}
    (answers : Answers cellIds e) : Once cellIds (step page e).1 ↔ Single page e := by
  constructor
  · intro after
    refine single_of_length grounded answers (fun cellId member => ?_)
    obtain ⟨outputs,shows,before⟩ := once cellId member
    obtain ⟨outputs',shows',balanced⟩ := balance grounded e shows
    obtain ⟨_,same,perm⟩ := after cellId member
    obtain rfl := Option.some.inj (shows'.symm.trans same)
    rw [step_published,outputsFor_append] at perm
    have total := balanced.length_eq
    have sooner := before.length_eq
    have later := perm.length_eq
    simp only [List.length_append] at total sooner later
    omega
  · intro single cellId member
    obtain ⟨outputs,shows,before⟩ := once cellId member
    obtain ⟨outputs',shows',balanced⟩ := balance grounded e shows
    obtain ⟨kept,added⟩ := single_same single cellId
    rw [kept,added,List.append_nil] at balanced
    refine ⟨outputs',shows',balanced.trans ?_⟩
    rw [step_published,outputsFor_append]
    exact before.append_right _

end

/-! ## After all cells were run -/

/-- The page that has run all its cells, over one connection. -/
def ranAll (editor : NotebookEditor) : Page :=
  ⟨(submitAllCellsForExecution true true ⟨editor,[]⟩).editor,[⟨true,[]⟩],[]⟩

theorem ranAll_grounded {editor : NotebookEditor} (inv : CellValues.Inv editor) :
    Grounded ((codeCells editor).map ICell.id) (ranAll editor) ∧ Once ((codeCells editor).map ICell.id) (ranAll editor) := by
  have clear : Clear [] editor := ⟨inv.editing,inv.sound,fun _ none => nomatch none⟩
  have there : ∀ cell ∈ codeCells editor, ∃ target ∈ editor.cells, target.id = cell.id :=
    fun cell member => ⟨cell,(List.mem_filter.mp member).1,rfl⟩
  obtain ⟨cleared,seen,_⟩ := @submitted_all [] true (codeCells editor) ⟨editor,[]⟩ clear there
  have isPage : (ranAll editor).editor =
      ((codeCells editor).foldl (fun page cell => submitCell true cell.source cell.id page) ⟨editor,[]⟩).editor := rfl
  refine ⟨⟨isPage ▸ cleared,by simp [ranAll]⟩,fun cellId member => ⟨[],?_,by simp [ranAll,outputsFor]⟩⟩
  have ids : ∀ cell : Cell,
      (if cell.id ∈ (codeCells editor).map ICell.id then cell.submitted else cell).id = cell.id := by
    intro cell
    split_ifs <;> rfl
  rw [shownFor,isPage,seen,foldl_submit,find?_map_id ids]
  obtain ⟨cell,isCode,isCell⟩ := List.mem_map.mp member
  have listed : ((notebookOf editor).cells.find? (fun cell => cell.id = cellId)).isSome := by
    refine List.find?_isSome.mpr ⟨valueOf editor.arrays cell,?_,decide_eq_true isCell⟩
    exact List.mem_map_of_mem (List.mem_filter.mp isCode).1
  obtain ⟨value,found⟩ := Option.isSome_iff_exists.mp listed
  have same : value.id = cellId := by simpa using List.find?_some found
  rw [found,Option.map_some,Option.bind_some,if_pos (same ▸ member)]
  rfl

/-- After any run of edits all cells are run. In every order of reconnections, closed
connections, messages of the kernel and their arrivals, each output that the kernel
publishes is there once, in its cell or on its way, if and only if every one is published
while one connection is open and none is closed before what it carries is read. -/
theorem published_once_iff (edits : List NotebookCells.Event)
    (good : Meets NotebookCells.step CellEditing.Good mounted edits) (events : List Event) :
    let before := (run NotebookCells.step mounted edits).1
    let cellIds := (codeCells before).map ICell.id
    (∀ message, .publish message ∈ events → message.msgId ∈ cellIds) →
      (Always step (Once cellIds) (ranAll before) events ↔ Meets step Single (ranAll before) events) := by
  intro before cellIds answers
  let Inv := fun page => Grounded cellIds page ∧ Once cellIds page
  have start : Inv (ranAll before) := ranAll_grounded (reached_inv edits good)
  have fit : ∀ e ∈ events, Answers cellIds e := by
    intro e member
    cases e with
    | publish message => exact answers message member
    | _ => trivial
  refine always_iff_meets_of_fit (fun page inv => inv.2) ?_ ?_ start fit
  · intro page e answered inv single
    exact ⟨step_grounded inv.1 answered,(once_step_iff inv.1 inv.2 answered).mpr single⟩
  · intro page e answered inv after
    exact (once_step_iff inv.1 inv.2 answered).mp after

/-- A notebook with a cell of code. -/
def oneCell : List NotebookCells.Event := [.load (some [⟨"code",0,"1 + 1",some [],none⟩]) (fun _ => "a")]

def two : Message := ⟨"a",.executeResult (.str "2")⟩

/-- The result is shown once, and twice after a reconnection. -/
theorem reconnected_twice :
    let page := ranAll (run NotebookCells.step mounted oneCell).1
    Always step (Once ["a"]) page [.publish two,.arrive 0] ∧
      ¬ Always step (Once ["a"]) page [.connect,.publish two,.arrive 1,.arrive 0] := by
  have good : Meets NotebookCells.step CellEditing.Good mounted oneCell :=
    ⟨⟨⟨by decide,by simp [mounted]⟩,trivial⟩,trivial⟩
  have ids : (codeCells (run NotebookCells.step mounted oneCell).1).map ICell.id = ["a"] := by decide
  have once := published_once_iff oneCell good
  dsimp only at once
  rw [ids] at once
  refine ⟨(once _ ?_).mpr ⟨fun _ => rfl,trivial,trivial⟩,fun always => ?_⟩
  · simp [two]
  · -- the second connection is open when the result is published
    have single := (once _ (by simp [two])).mp always
    exact absurd (single.2.1 rfl) (by decide)

end Zasper.PublishedOutputs
