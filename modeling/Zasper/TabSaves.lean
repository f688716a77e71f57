import Zasper.Editors
import Zasper.Runs

/-!
# What an editor saves

Over every run of the page: a request that saves a path carries what was last loaded
from this path with the edits made under it, as long as no tab is closed or opened
before two neighbours with the same kind of editor, an editor is saved only once its
content has arrived, no shortcut reaches a notebook in the background, and no text with
a carriage return is edited (`saves_kept`). `closedFirst` is a run in which the content
of a file is saved under the path of another.
-/
namespace Zasper.TabSaves
open Zasper.JsonValues Zasper.JsObjects Zasper.JsObjects.JsObject Zasper.Tabs Zasper.Editors Zasper.Runs
set_option linter.unusedSimpArgs false

/-! ## What is to be saved -/

def changeText (change : String → String) : Content → Content
  | .text s => .text (change s)
  | .notebook n => .notebook n

def changeCells (change : List ICell → List ICell) : Content → Content
  | .text s => .text s
  | .notebook n => .notebook { n with cells := change n.cells }

/-- What was last loaded from the path, with the edits that were made under it. -/
def contentOf (path : String) : List Entry → Option Content
  | [] => none
  | .loaded p content :: log => if p = path then some content else contentOf path log
  | .typed p change :: log =>
    if p = path then (contentOf path log).map (changeText change) else contentOf path log
  | .edited p change :: log =>
    if p = path then (contentOf path log).map (changeCells change) else contentOf path log
  | .opened _ _ :: log => contentOf path log
  | .kernelChanged _ _ :: log => contentOf path log

/-- The kernel that the tab of the path was opened with, or that was chosen in it. -/
def kernelOf (path : String) : List Entry → Option String
  | [] => none
  | .opened p kernelspec :: log => if p = path then some kernelspec else kernelOf path log
  | .kernelChanged p kernelName :: log => if p = path then some kernelName else kernelOf path log
  | .loaded _ _ :: log => kernelOf path log
  | .typed _ _ :: log => kernelOf path log
  | .edited _ _ :: log => kernelOf path log

/-- What a request to save the path should carry. The metadata of a notebook are those of
    its kernel. -/
def expected (path : String) (log : List Entry) : Option Content :=
  match contentOf path log with
  | some (.text s) => some (.text s)
  | some (.notebook n) =>
    (kernelOf path log).map (fun kernelName => .notebook { n with metadata := getNotebookMetaData kernelName })
  | none => none

/-- The request saves what was loaded and edited under its path, and nothing else. -/
def Kept (sent : Sent) : Prop :=
  match sent.request with
  | .putContents path content _ _ => ∃ c, content = some c ∧ expected path sent.log = some c
  | .deleteKernel _ => True

/-! ## Events that keep the editors and their tabs together -/

/-- The tab that opens for the path and the tabs that it goes before are apart. -/
def OpensApart (tabs : JsObject IfileTab) (name path type kernelspec : String) : Prop :=
  Opens tabs path → Apart (newTab name path type kernelspec :: (after path tabs.entries).map (·.2))

/-- A text without a carriage return. -/
def Plain (text : String) : Prop := '\r' ∉ text.toList

/-- Neither the text nor what an edit makes of it has a carriage return. -/
def EditedPlain (change : String → String) (text : String) : Prop := Plain text ∧ Plain (change text)

/-- The text that is edited is plain before and after. -/
def TypesPlain (change : String → String) (pane : Pane) : Prop :=
  match pane.component with
  | .fileEditor editor => pane.loaded = true → ∀ text ∈ editor.fileContents, EditedPlain change text
  | _ => True

def TypesCellPlain (cellId : String) (change : String → String) (pane : Pane) : Prop :=
  match pane.component with
  | .notebookEditor editor => ∀ cell ∈ editor.notebook.cells, cell.id = cellId → EditedPlain change cell.source
  | _ => True

/-- The event hands no editor from one tab to another, saves no editor whose content has
    not arrived, edits no notebook in the background, and no text with a carriage return. -/
def Careful (ui : UI) : Event → Prop
  | .activate name path type kernelspec => OpensApart ui.fileTabsState name path type kernelspec
  | .close key =>
    ∀ tab ∈ ui.fileTabsState.get? key, (tab.type = "notebook" → (ui.notebookKernelMap.get? key).isSome) →
      Apart ((ui.fileTabsState.fromKey key).map (·.2))
  | .created i name path =>
    ∀ c ∈ ui.creating[i]?, InPlace ui.fileTabsState.values (opening c.1 name path "notebook" c.2)
  | .keydown path _ _ =>
    ∀ pane ∈ paneOf ui path, pane.component.kind = .notebookEditor → pane.data.active = true
  | .type path change => ∀ pane ∈ visible ui path, TypesPlain change pane
  | .typeCell path cellId change => ∀ pane ∈ visible ui path, TypesCellPlain cellId change pane
  | .save path => ∀ pane ∈ visible ui path, pane.loaded = true
  | _ => True

instance (tabs : JsObject IfileTab) (name path type kernelspec : String) :
    Decidable (OpensApart tabs name path type kernelspec) := inferInstanceAs (Decidable (_ → _))

instance (change : String → String) (text : String) : Decidable (EditedPlain change text) :=
  inferInstanceAs (Decidable (¬ _ ∧ ¬ _))

instance (change : String → String) (pane : Pane) : Decidable (TypesPlain change pane) := by
  unfold TypesPlain
  split <;> infer_instance

instance (cellId : String) (change : String → String) (pane : Pane) : Decidable (TypesCellPlain cellId change pane) := by
  unfold TypesCellPlain
  split <;> infer_instance

instance (ui : UI) (event : Event) : Decidable (Careful ui event) := by
  unfold Careful
  split <;> infer_instance

/-! ## What a pane shows -/

section
variable {codeMirror : String → String}

/-- Two records say the same about a path. -/
def SameOn (path : String) (log log' : List Entry) : Prop :=
  contentOf path log' = contentOf path log ∧ kernelOf path log' = kernelOf path log

theorem SameOn.refl (path : String) (log : List Entry) : SameOn path log log := ⟨rfl,rfl⟩

variable (codeMirror) in
/-- The pane shows the content of the path of its tab. -/
def Shows (log : List Entry) (pane : Pane) : Prop :=
  pane.component.kind = Editor pane.data ∧
  match pane.component with
  | .fileEditor editor =>
    (∀ p ∈ pane.fetching, p = pane.data.path) ∧
    (pane.loaded = true → ∃ text, editor.fileContents = some text ∧ editor.document = codeMirror text ∧
      contentOf pane.data.path log = some (.text text))
  | .notebookEditor editor =>
    (∀ p ∈ pane.fetching, p = pane.data.path) ∧
    (pane.loaded = true ∨ pane.fetching ≠ [] → kernelOf pane.data.path log = some editor.kernelName) ∧
    (pane.loaded = true → ∃ metadata, contentOf pane.data.path log =
      some (.notebook { editor.notebook with metadata := metadata }))
  | _ => True

theorem Shows.congr {log log' : List Entry} {pane : Pane} (shows : Shows codeMirror log pane)
    (same : SameOn pane.data.path log log') : Shows codeMirror log' pane := by
  unfold Shows at *
  rw [same.1,same.2]
  exact shows

theorem mount_kind (tab : IfileTab) : (mount tab).kind = Editor tab := by
  unfold mount
  cases Editor tab <;> rfl

/-- A component that was just mounted promises nothing. -/
theorem mount_shows (log : List Entry) (tab : IfileTab) : Shows codeMirror log ⟨tab,mount tab,[],false⟩ := by
  refine ⟨mount_kind tab,?_⟩
  dsimp only
  split <;> simp

theorem reconcile_data (tab : IfileTab) (old : Option Pane) : (reconcile tab old).data = tab := by
  unfold reconcile
  split
  · split_ifs <;> rfl
  · rfl

theorem reconcile_shows {log : List Entry} {tab : IfileTab} {old : Option Pane}
    (shows : ∀ pane ∈ old, Shows codeMirror log pane ∧ (TakesOver pane.data tab → tab.path = pane.data.path)) :
    Shows codeMirror log (reconcile tab old) := by
  cases old with
  | none => exact mount_shows log tab
  | some pane =>
    obtain ⟨⟨kind,content⟩,place⟩ := shows pane rfl
    unfold reconcile
    dsimp only
    split_ifs with kept
    · refine ⟨kept,?_⟩
      have same : Editor pane.data = Editor tab := kind.symm.trans kept
      dsimp only
      split
      · rename_i editor component
        rw [component] at content kind
        rw [place ⟨same,.inl kind.symm⟩]
        exact content
      · rename_i editor component
        rw [component] at content kind
        rw [place ⟨same,.inr kind.symm⟩]
        exact content
      · trivial
    · exact mount_shows log tab

theorem effect_data (pane : Pane) : pane.effect.data = pane.data := by
  unfold Pane.effect
  split_ifs
  · split <;> rfl
  · rfl

/-- The effect of a pane, where the record of its kernel is renewed with its content. -/
theorem effect_shows {log log' : List Entry} {pane : Pane} (shows : Shows codeMirror log pane)
    (contents : ∀ path, contentOf path log' = contentOf path log)
    (kernel : kernelOf pane.data.path log' =
      if pane.data.loadRequired then some pane.data.kernelspec else kernelOf pane.data.path log) :
    Shows codeMirror log' pane.effect := by
  unfold Pane.effect
  split_ifs with loads
  · rw [if_pos loads] at kernel
    obtain ⟨kind,content⟩ := shows
    split
    · rename_i editor component
      rw [component] at content kind
      refine ⟨by rw [component]; exact kind,?_⟩
      rw [component,contents]
      refine ⟨fun p member => ?_,content.2⟩
      rcases List.mem_append.mp member with old | new
      · exact content.1 p old
      · exact List.mem_singleton.mp new
    · rename_i editor component
      rw [component] at content kind
      refine ⟨kind,fun p member => ?_,fun _ => kernel,?_⟩
      · rcases List.mem_append.mp member with old | new
        · exact content.1 p old
        · exact List.mem_singleton.mp new
      · rw [contents]
        exact content.2.2
    · rename_i noFile noNotebook
      refine ⟨kind,?_⟩
      split
      · exact absurd ‹_› (noFile _)
      · exact absurd ‹_› (noNotebook _)
      · trivial
  · rw [if_neg loads] at kernel
    exact shows.congr ⟨contents _,kernel⟩

theorem contentPanel_data (tabs : List IfileTab) (panes : List Pane) :
    (contentPanel tabs panes).map (·.data) = tabs := by
  induction tabs generalizing panes with
  | nil => rfl
  | cons tab tabs ih =>
    rw [contentPanel,List.map_cons,ih,effect_data,reconcile_data]

/-- Tabs that stand in place get panes that show them. -/
theorem contentPanel_shows {log log' : List Entry} {tabs : List IfileTab} {panes : List Pane}
    (shows : ∀ pane ∈ panes, Shows codeMirror log pane) (place : InPlace (panes.map (·.data)) tabs)
    (contents : ∀ path, contentOf path log' = contentOf path log)
    (kernels : ∀ tab ∈ tabs, kernelOf tab.path log' =
      if tab.loadRequired then some tab.kernelspec else kernelOf tab.path log) :
    ∀ pane ∈ contentPanel tabs panes, Shows codeMirror log' pane := by
  induction tabs generalizing panes with
  | nil => simp [contentPanel]
  | cons tab tabs ih =>
    obtain ⟨here,later⟩ := List.forall_mem_cons.mp kernels
    refine List.forall_mem_cons.mpr ⟨?_,?_⟩
    · refine effect_shows (reconcile_shows (fun pane old => ?_)) contents (by rwa [reconcile_data])
      cases panes with
      | nil => simp at old
      | cons first rest =>
        obtain rfl := Option.some.inj old
        exact ⟨shows _ List.mem_cons_self,place.1⟩
    · cases panes with
      | nil => exact ih (by simp) trivial later
      | cons first rest => exact ih (fun pane member => shows pane (List.mem_cons_of_mem _ member)) place.2 later

/-! ## The page -/

variable (codeMirror) in
/-- Every pane shows the tab at its place, with the content of its path. -/
structure Aligned (ui : UI) : Prop where
  named : Named ui.fileTabsState
  captured : ∀ c ∈ ui.creating, Named c.1
  rendered : ui.panes.map (·.data) = ui.fileTabsState.values
  shows : ∀ pane ∈ ui.panes, Shows codeMirror ui.log pane

/-- Two panes do not show tabs of one path. -/
theorem Aligned.data_eq {ui : UI} (aligned : Aligned codeMirror ui) {a b : Pane} (first : a ∈ ui.panes) (second : b ∈ ui.panes)
    (same : a.data.path = b.data.path) : a.data = b.data := by
  have stands : ∀ pane ∈ ui.panes, ∃ e ∈ ui.fileTabsState.entries, e.2 = pane.data := by
    intro pane member
    have value : pane.data ∈ ui.fileTabsState.values := aligned.rendered ▸ List.mem_map_of_mem member
    exact List.mem_map.mp value
  obtain ⟨x,memberX,dataX⟩ := stands a first
  obtain ⟨y,memberY,dataY⟩ := stands b second
  have key : x.1 = y.1 := by
    rw [← aligned.named x memberX,← aligned.named y memberY,dataX,dataY,same]
  rw [← dataX,← dataY,entries_functional memberX memberY key]

theorem paneOf_spec {ui : UI} {path : String} {pane : Pane} (found : paneOf ui path = some pane) :
    pane ∈ ui.panes ∧ pane.data.path = path :=
  ⟨List.mem_of_find?_eq_some found,by simpa using List.find?_some found⟩

theorem visible_spec {ui : UI} {path : String} {pane : Pane} (found : visible ui path = some pane) :
    pane ∈ ui.panes ∧ pane.data.path = path := paneOf_spec (Option.filter_eq_some_iff.mp found).1

/-- A pane changes, and only its path is written about. -/
theorem put_aligned {ui : UI} (aligned : Aligned codeMirror ui) {old new : Pane} (member : old ∈ ui.panes)
    (data : new.data = old.data) {entries : List Entry} (shows : Shows codeMirror (entries ++ ui.log) new)
    (others : ∀ path, path ≠ old.data.path → SameOn path ui.log (entries ++ ui.log)) :
    Aligned codeMirror (ui.put new entries) := by
  refine ⟨aligned.named,aligned.captured,?_,?_⟩
  · refine Eq.trans ?_ aligned.rendered
    simp only [UI.put,List.map_map]
    refine List.map_congr_left ?_
    intro p old'
    simp only [Function.comp_apply]
    split_ifs with same
    · rw [data]
      exact aligned.data_eq member old' (by rw [same,data])
    · rfl
  · intro pane changed
    obtain ⟨p,old',rfl⟩ := List.mem_map.mp changed
    dsimp only [UI.put]
    split_ifs with same
    · exact shows
    · exact (aligned.shows p old').congr (others _ (by rwa [← data]))

/-- New tabs that stand in place. -/
theorem render_aligned {ui : UI} (aligned : Aligned codeMirror ui) {tabs : JsObject IfileTab} (named : Named tabs)
    (place : InPlace ui.fileTabsState.values tabs.values) {log : List Entry}
    (contents : ∀ path, contentOf path log = contentOf path ui.log)
    (kernels : ∀ tab ∈ tabs.values, kernelOf tab.path log =
      if tab.loadRequired then some tab.kernelspec else kernelOf tab.path ui.log) :
    Aligned codeMirror ({ ui with log := log }.render tabs) := by
  refine ⟨named,aligned.captured,contentPanel_data _ _,?_⟩
  exact contentPanel_shows aligned.shows (by rwa [aligned.rendered]) contents kernels

/-- A tab is opened, or brought to the front, in place. -/
theorem activate_aligned {ui : UI} (aligned : Aligned codeMirror ui) {tabs : JsObject IfileTab} (named : Named tabs)
    {name path type kernelspec : String}
    (place : InPlace ui.fileTabsState.values (opening tabs name path type kernelspec)) :
    Aligned codeMirror (ui.activate tabs name path type kernelspec) := by
  unfold UI.activate
  cases done : handleTabActivate tabs name path type kernelspec with
  | none => exact ⟨aligned.named,aligned.captured,aligned.rendered,aligned.shows⟩
  | some updated =>
    refine render_aligned aligned (activated_named named done) (inPlace_shape place (activated_shapes done))
      (fun p => ?_) (fun tab member => ?_)
    · split_ifs <;> rfl
    · cases loads : tab.loadRequired with
      | true =>
        obtain ⟨opens,rfl⟩ := activated_loads done member loads
        rw [if_pos opens]
        exact if_pos rfl
      | false =>
        rw [if_neg Bool.false_ne_true]
        split_ifs with opens
        · exact if_neg (activated_others done named opens member loads).symm
        · rfl

/-! ## One event -/

section
variable {log : List Entry} {data : IfileTab} {fetching : List String} {loaded : Bool}

theorem type_shows (keeps : ∀ text, Plain text → codeMirror text = text) {editor : FileEditor}
    (shows : Shows codeMirror log ⟨data,.fileEditor editor,fetching,loaded⟩) {change : String → String}
    (plain : TypesPlain change ⟨data,.fileEditor editor,fetching,loaded⟩) :
    let document := codeMirror (change editor.document)
    Shows codeMirror (.typed data.path change :: log) ⟨data,.fileEditor ⟨some document,document⟩,fetching,loaded⟩ := by
  intro document
  obtain ⟨kind,requested,content⟩ := shows
  refine ⟨kind,requested,fun arrived => ?_⟩
  obtain ⟨text,contents,shown,known⟩ := content arrived
  obtain ⟨before,after⟩ := plain arrived text contents
  have typed : document = change text := by
    show codeMirror (change editor.document) = _
    rw [shown,keeps text before,keeps _ after]
  refine ⟨change text,congrArg some typed,?_,?_⟩
  · rw [keeps _ after]
    exact typed
  · simp [contentOf,known,changeText]

/-- In plain cells the text is what was typed. -/
theorem updateCellSource_plain (keeps : ∀ text, Plain text → codeMirror text = text) {cellId : String}
    {change : String → String} {cells : List ICell}
    (plain : ∀ cell ∈ cells, cell.id = cellId → EditedPlain change cell.source) :
    updateCellSource cellId (fun source => codeMirror (change (codeMirror source))) cells =
      updateCellSource cellId change cells := by
  refine List.map_congr_left (fun cell member => ?_)
  split_ifs with own
  · obtain ⟨before,after⟩ := plain cell member own
    have typed : codeMirror (change (codeMirror cell.source)) = change cell.source := by
      rw [keeps _ before,keeps _ after]
    exact congrArg cell.withSource typed
  · rfl

theorem edit_shows {editor : NotebookEditor} (shows : Shows codeMirror log ⟨data,.notebookEditor editor,fetching,loaded⟩)
    (change : List ICell → List ICell) : Shows codeMirror (.edited data.path change :: log)
      ⟨data,.notebookEditor (editor.withCells change),fetching,loaded⟩ := by
  obtain ⟨kind,requested,kernel,content⟩ := shows
  refine ⟨kind,requested,kernel,?_⟩
  intro arrived
  obtain ⟨metadata,known⟩ := content arrived
  refine ⟨metadata,?_⟩
  simp only [contentOf,if_pos,known,Option.map_some,changeCells,NotebookEditor.withCells]

theorem focus_shows {editor : NotebookEditor} (shows : Shows codeMirror log ⟨data,.notebookEditor editor,fetching,loaded⟩)
    (i : Int) : Shows codeMirror log ⟨data,.notebookEditor { editor with focusedIndex := i },fetching,loaded⟩ := shows

theorem changeKernel_shows {editor : NotebookEditor}
    (shows : Shows codeMirror log ⟨data,.notebookEditor editor,fetching,loaded⟩) (value : String) :
    Shows codeMirror (.kernelChanged data.path value :: log)
      ⟨data,.notebookEditor { editor with kernelName := value },fetching,loaded⟩ := by
  obtain ⟨kind,requested,-,content⟩ := shows
  exact ⟨kind,requested,fun _ => if_pos rfl,content⟩

/-- An answer brings the content of the path of the tab. -/
theorem receive_shows {pane : Pane} (shows : Shows codeMirror log pane) {i : Nat} {path : String}
    (requested : pane.fetching[i]? = some path) (reply : Reply) (uuidv4 : Nat → String) :
    let received := { pane with fetching := pane.fetching.eraseIdx i }.receive codeMirror path reply uuidv4
    received.1.data = pane.data ∧ Shows codeMirror (received.2 ++ log) received.1 ∧
      ∀ other, other ≠ pane.data.path → SameOn other log (received.2 ++ log) := by
  have asked : path ∈ pane.fetching := List.mem_of_getElem? requested
  have left : ∀ p ∈ pane.fetching.eraseIdx i, p ∈ pane.fetching := fun p member => List.mem_of_mem_eraseIdx member
  have wasFetching : pane.fetching ≠ [] := List.ne_nil_of_mem asked
  obtain ⟨data,component,fetching,loaded⟩ := pane
  obtain ⟨kind,content⟩ := shows
  cases component with
  | fileEditor editor =>
    obtain ⟨own,-⟩ := content
    obtain rfl : path = data.path := own path asked
    have rest : ∀ p ∈ fetching.eraseIdx i, p = data.path := fun p member => own p (left p member)
    rcases reply with ⟨_ | content⟩ | ⟨cells,metadata,fields⟩ | _
    · exact ⟨rfl,⟨kind,rest,fun arrived => absurd arrived Bool.false_ne_true⟩,fun _ _ => SameOn.refl ..⟩
    · exact ⟨rfl,⟨kind,rest,fun _ => ⟨content,rfl,rfl,if_pos rfl⟩⟩,fun _ other => ⟨if_neg other.symm,rfl⟩⟩
    · exact ⟨rfl,⟨kind,rest,fun arrived => absurd arrived Bool.false_ne_true⟩,fun _ _ => SameOn.refl ..⟩
    · exact ⟨rfl,⟨kind,rest,fun arrived => absurd arrived Bool.false_ne_true⟩,fun _ _ => SameOn.refl ..⟩
  | notebookEditor editor =>
    obtain ⟨own,kernel,-⟩ := content
    obtain rfl : path = data.path := own path asked
    have rest : ∀ p ∈ fetching.eraseIdx i, p = data.path := fun p member => own p (left p member)
    have known := kernel (.inr wasFetching)
    rcases reply with content | ⟨cells,metadata,fields⟩ | _
    · exact ⟨rfl,⟨kind,rest,fun _ => known,fun arrived => absurd arrived Bool.false_ne_true⟩,fun _ _ => SameOn.refl ..⟩
    · exact ⟨rfl,⟨kind,rest,fun _ => known,fun _ => ⟨metadata,if_pos rfl⟩⟩,fun _ other => ⟨if_neg other.symm,rfl⟩⟩
    · exact ⟨rfl,⟨kind,rest,fun _ => known,fun arrived => absurd arrived Bool.false_ne_true⟩,fun _ _ => SameOn.refl ..⟩
  | launcher => exact ⟨rfl,⟨kind,trivial⟩,fun _ _ => SameOn.refl ..⟩
  | imageEditor => exact ⟨rfl,⟨kind,trivial⟩,fun _ _ => SameOn.refl ..⟩
  | terminalTab => exact ⟨rfl,⟨kind,trivial⟩,fun _ _ => SameOn.refl ..⟩
  | fragment => exact ⟨rfl,⟨kind,trivial⟩,fun _ _ => SameOn.refl ..⟩

/-- An editor whose content has arrived saves what is expected. -/
theorem handleCmdEnter_spec {pane next : Pane} {request : Request} (shows : Shows codeMirror log pane)
    (saved : pane.handleCmdEnter = some (next,request)) :
    next.data = pane.data ∧ Shows codeMirror log next ∧ (pane.loaded = true → Kept ⟨request,log⟩) := by
  obtain ⟨data,component,fetching,loaded⟩ := pane
  obtain ⟨kind,content⟩ := shows
  cases component with
  | fileEditor editor =>
    obtain ⟨rfl,rfl⟩ := Prod.mk.inj (Option.some.inj saved)
    refine ⟨rfl,⟨kind,content⟩,?_⟩
    intro arrived
    obtain ⟨text,contents,-,known⟩ := content.2 arrived
    refine ⟨.text text,by simp [contents],?_⟩
    simp only [expected,known]
  | notebookEditor editor =>
    obtain ⟨rfl,rfl⟩ := Prod.mk.inj (Option.some.inj saved)
    refine ⟨rfl,⟨kind,content⟩,?_⟩
    intro arrived
    obtain ⟨metadata,known⟩ := content.2.2 arrived
    refine ⟨_,rfl,?_⟩
    simp only [expected,known,content.2.1 (.inl arrived),Option.map_some]
  | launcher => cases saved
  | imageEditor => cases saved
  | terminalTab => cases saved
  | fragment => cases saved

end

variable (codeMirror) in
/-- The page stays aligned under the event, and the request that is sent is kept. -/
def Keeps (ui : UI) (event : Event) : Prop :=
  Aligned codeMirror (handle codeMirror ui event).1 ∧ ∀ s ∈ (handle codeMirror ui event).2, Kept s

theorem keeps_of_silent {ui : UI} {event : Event} {next : UI} (done : handle codeMirror ui event = (next,none))
    (aligned : Aligned codeMirror next) : Keeps codeMirror ui event := by
  simpa [Keeps,done] using aligned

section
variable {ui : UI} (aligned : Aligned codeMirror ui)
include aligned

theorem keeps_close {key : String} (careful : Careful ui (.close key)) : Keeps codeMirror ui (.close key) := by
  cases done : handleTabClose ui.notebookKernelMap ui.fileTabsState key with
  | none => exact keeps_of_silent (by simp only [handle,done]) aligned
  | some closed =>
    obtain ⟨tabs,kernelId⟩ := closed
    simp only [Keeps,handle,done]
    constructor
    · refine render_aligned aligned (closed_named aligned.named done) (closed_inPlace done careful) (fun _ => rfl)
        (fun tab member => ?_)
      rw [closed_loads done member]
      rfl
    · intro s sent
      obtain ⟨id,-,rfl⟩ := Option.map_eq_some_iff.mp sent
      trivial

theorem keeps_create (kernelspec : String) : Keeps codeMirror ui (.create kernelspec) := by
  by_cases launcher : ui.panes.any (fun pane => pane.component.kind = .launcher && pane.data.active) = true
  · simp only [Keeps,handle,if_pos launcher]
    refine ⟨⟨aligned.named,?_,aligned.rendered,aligned.shows⟩,by simp⟩
    intro c member
    rcases List.mem_append.mp member with old | new
    · exact aligned.captured c old
    · rw [List.mem_singleton.mp new]
      exact aligned.named
  · exact keeps_of_silent (by simp only [handle,if_neg launcher]) aligned

theorem keeps_created {i : Nat} {name path : String} (careful : Careful ui (.created i name path)) :
    Keeps codeMirror ui (.created i name path) := by
  cases found : ui.creating[i]? with
  | none => exact keeps_of_silent (by simp only [handle,found]) aligned
  | some c =>
    obtain ⟨tabs,kernelspec⟩ := c
    have named : Named tabs := aligned.captured _ (List.mem_of_getElem? found)
    have rest : Aligned codeMirror { ui with creating := ui.creating.eraseIdx i } :=
      ⟨aligned.named,fun c member => aligned.captured c (List.mem_of_mem_eraseIdx member),aligned.rendered,
        aligned.shows⟩
    simp only [Keeps,handle,found]
    exact ⟨activate_aligned rest named (careful _ found),by simp⟩

theorem keeps_answer (path : String) (i : Nat) (reply : Reply) (uuidv4 : Nat → String) :
    Keeps codeMirror ui (.answer path i reply uuidv4) := by
  cases found : paneOf ui path with
  | none => exact keeps_of_silent (by simp only [handle,found]) aligned
  | some pane =>
    cases requested : pane.fetching[i]? with
    | none => exact keeps_of_silent (by simp only [handle,found,requested]) aligned
    | some asked =>
      obtain ⟨member,-⟩ := paneOf_spec found
      obtain ⟨data,shows,others⟩ := receive_shows (aligned.shows pane member) requested reply uuidv4
      simp only [Keeps,handle,found,requested]
      exact ⟨put_aligned aligned member data shows others,by simp⟩

theorem keeps_type (keeps : ∀ text, Plain text → codeMirror text = text) {path : String} {change : String → String}
    (careful : Careful ui (.type path change)) : Keeps codeMirror ui (.type path change) := by
  cases found : visible ui path with
  | none => exact keeps_of_silent ((handle_hidden codeMirror found).1 change) aligned
  | some pane =>
    have plain := careful pane found
    obtain ⟨member,rfl⟩ := visible_spec found
    obtain ⟨data,component,fetching,loaded⟩ := pane
    cases component
    case fileEditor editor =>
      simp only [Keeps,handle,found]
      refine ⟨put_aligned aligned member (by rfl) ?_ ?_,by simp⟩
      · exact type_shows keeps (aligned.shows _ member) plain
      · exact fun _ other => ⟨if_neg other.symm,rfl⟩
    all_goals exact keeps_of_silent (by simp only [handle,found]) aligned

theorem keeps_typeCell (keeps : ∀ text, Plain text → codeMirror text = text) {path cellId : String}
    {change : String → String} (careful : Careful ui (.typeCell path cellId change)) :
    Keeps codeMirror ui (.typeCell path cellId change) := by
  cases found : visible ui path with
  | none => exact keeps_of_silent ((handle_hidden codeMirror found).2.1 cellId change) aligned
  | some pane =>
    have plain := careful pane found
    obtain ⟨member,rfl⟩ := visible_spec found
    obtain ⟨data,component,fetching,loaded⟩ := pane
    cases component
    case notebookEditor editor =>
      simp only [Keeps,handle,found,NotebookEditor.withCells,updateCellSource_plain keeps plain]
      refine ⟨put_aligned aligned member (by rfl) ?_ ?_,by simp⟩
      · exact edit_shows (aligned.shows _ member) _
      · exact fun _ other => ⟨if_neg other.symm,rfl⟩
    all_goals exact keeps_of_silent (by simp only [handle,found]) aligned

theorem keeps_edit (path : String) (change : List ICell → List ICell) : Keeps codeMirror ui (.edit path change) := by
  cases found : visible ui path with
  | none => exact keeps_of_silent ((handle_hidden codeMirror found).2.2.1 change) aligned
  | some pane =>
    obtain ⟨member,rfl⟩ := visible_spec found
    obtain ⟨data,component,fetching,loaded⟩ := pane
    cases component
    case notebookEditor editor =>
      simp only [Keeps,handle,found]
      refine ⟨put_aligned aligned member (by rfl) ?_ ?_,by simp⟩
      · exact edit_shows (aligned.shows _ member) change
      · exact fun _ other => ⟨if_neg other.symm,rfl⟩
    all_goals exact keeps_of_silent (by simp only [handle,found]) aligned

theorem keeps_keydown {path uuid : String} {up : Bool} (careful : Careful ui (.keydown path up uuid)) :
    Keeps codeMirror ui (.keydown path up uuid) := by
  cases found : paneOf ui path with
  | none => exact keeps_of_silent (by simp only [handle,found]) aligned
  | some pane =>
    have onScreen := careful pane found
    obtain ⟨member,rfl⟩ := paneOf_spec found
    obtain ⟨data,component,fetching,loaded⟩ := pane
    cases component
    case notebookEditor editor =>
      simp only [Keeps,handle,found,if_pos (onScreen rfl)]
      refine ⟨put_aligned aligned member (by rfl) ?_ ?_,by simp⟩
      · exact edit_shows (aligned.shows _ member) _
      · exact fun _ other => ⟨if_neg other.symm,rfl⟩
    all_goals exact keeps_of_silent (by simp only [handle,found]) aligned

theorem keeps_focus (path : String) (i : Int) : Keeps codeMirror ui (.focus path i) := by
  cases found : visible ui path with
  | none => exact keeps_of_silent ((handle_hidden codeMirror found).2.2.2.1 i) aligned
  | some pane =>
    obtain ⟨member,rfl⟩ := visible_spec found
    obtain ⟨data,component,fetching,loaded⟩ := pane
    cases component
    case notebookEditor editor =>
      simp only [Keeps,handle,found]
      refine ⟨put_aligned aligned member (by rfl) ?_ ?_,by simp⟩
      · exact focus_shows (aligned.shows _ member) i
      · exact fun _ _ => SameOn.refl ..
    all_goals exact keeps_of_silent (by simp only [handle,found]) aligned

theorem keeps_changeKernel (path value : String) : Keeps codeMirror ui (.changeKernel path value) := by
  cases found : visible ui path with
  | none => exact keeps_of_silent ((handle_hidden codeMirror found).2.2.2.2.1 value) aligned
  | some pane =>
    obtain ⟨member,rfl⟩ := visible_spec found
    obtain ⟨data,component,fetching,loaded⟩ := pane
    cases component
    case notebookEditor editor =>
      have rest : Aligned codeMirror { ui with notebookKernelMap := ui.notebookKernelMap.delete data.path } :=
        ⟨aligned.named,aligned.captured,aligned.rendered,aligned.shows⟩
      simp only [Keeps,handle,found]
      refine ⟨put_aligned rest member (by rfl) ?_ ?_,by simp⟩
      · exact changeKernel_shows (aligned.shows _ member) value
      · exact fun _ other => ⟨rfl,if_neg other.symm⟩
    all_goals exact keeps_of_silent (by simp only [handle,found]) aligned

theorem keeps_save {path : String} (careful : Careful ui (.save path)) : Keeps codeMirror ui (.save path) := by
  cases found : visible ui path with
  | none => exact keeps_of_silent (handle_hidden codeMirror found).2.2.2.2.2 aligned
  | some pane =>
    obtain ⟨member,-⟩ := visible_spec found
    cases saved : pane.handleCmdEnter with
    | none => exact keeps_of_silent (by simp only [handle,found,Option.bind_some,saved]) aligned
    | some result =>
      obtain ⟨next,request⟩ := result
      obtain ⟨data,shows,kept⟩ := handleCmdEnter_spec (aligned.shows pane member) saved
      simp only [Keeps,handle,found,Option.bind_some,saved]
      refine ⟨put_aligned aligned member data shows (fun _ _ => SameOn.refl ..),?_⟩
      rintro s ⟨rfl⟩
      exact kept (careful pane found)

theorem handle_aligned (keeps : ∀ text, Plain text → codeMirror text = text) (event : Event) (careful : Careful ui event) :
    Keeps codeMirror ui event := by
  cases event with
  | activate name path type kernelspec =>
    exact keeps_of_silent rfl (activate_aligned aligned aligned.named (opening_inPlace careful))
  | close key => exact keeps_close aligned careful
  | create kernelspec => exact keeps_create aligned kernelspec
  | created i name path => exact keeps_created aligned careful
  | answer path i reply uuidv4 => exact keeps_answer aligned path i reply uuidv4
  | type path change => exact keeps_type aligned keeps careful
  | typeCell path cellId change => exact keeps_typeCell aligned keeps careful
  | edit path change => exact keeps_edit aligned path change
  | keydown path up uuid => exact keeps_keydown aligned careful
  | focus path i => exact keeps_focus aligned path i
  | changeKernel path value => exact keeps_changeKernel aligned path value
  | started path kernelId =>
    exact keeps_of_silent rfl ⟨aligned.named,aligned.captured,aligned.rendered,aligned.shows⟩
  | save path => exact keeps_save aligned careful

end

/-! ## Every run -/

theorem step_aligned (keeps : ∀ text, Plain text → codeMirror text = text) (ui : UI) (event : Event)
    (aligned : Aligned codeMirror ui) (careful : Careful ui event) :
    Aligned codeMirror (step codeMirror ui event).1 ∧ ∀ s ∈ (step codeMirror ui event).2, Kept s := by
  unfold step
  split_ifs
  · exact ⟨aligned,by simp⟩
  · exact handle_aligned aligned keeps event careful

theorem start_aligned : Aligned codeMirror start := by
  have values : defaultFileTabState.values = [⟨"launcher","Launcher","Launcher",true,some "txt",false,"none"⟩] := rfl
  have blank : Aligned codeMirror ⟨false,JsObject.empty,[],[],JsObject.empty,[]⟩ :=
    ⟨fun e member => by simp [JsObject.empty] at member,by simp,rfl,by simp⟩
  refine render_aligned blank ?_ trivial (fun _ => rfl) ?_
  · intro e member
    obtain rfl := List.mem_singleton.mp member
    rfl
  · rw [values]
    simp

end

/-- Every line end as a line feed, which is what `CodeMirror` makes of a text. -/
def lineFeeds : List Char → List Char
  | [] => []
  | '\r' :: '\n' :: rest => '\n' :: lineFeeds rest
  | '\r' :: rest => '\n' :: lineFeeds rest
  | c :: rest => c :: lineFeeds rest

theorem lineFeeds_of_plain {cs : List Char} (plain : '\r' ∉ cs) : lineFeeds cs = cs := by
  induction cs with
  | nil => rfl
  | cons c rest ih =>
    obtain ⟨here,later⟩ := not_or.mp (mt List.mem_cons.mpr plain)
    rw [lineFeeds,ih later]
    · exact fun _ same _ => here same.symm
    · exact fun same => here same.symm

def showsLines (text : String) : String := String.ofList (lineFeeds text.toList)

theorem showsLines_plain (text : String) (plain : Plain text) : showsLines text = text := by
  rw [showsLines,lineFeeds_of_plain plain,String.ofList_toList]

/-- The requests of a run from the start. -/
def sentBy (events : List Event) : List Sent := (run (step showsLines) start events).2.filterMap id

/-- A notebook and a file behind it, the file edited and saved. -/
def editedFile : List Event :=
  [.activate "n.ipynb" "n.ipynb" "notebook" "none",
    .answer "n.ipynb" 0 (.notebook (some []) (.obj []) []) (fun _ => "cell"),
    .activate "a.txt" "src/a.txt" "file" "none",
    .answer "src/a.txt" 0 (.file (some "alpha")) (fun _ => "cell"),
    .type "src/a.txt" (fun text => text ++ "!"),
    .save "src/a.txt"]

/-- Two files, the first of which is closed before the second is saved. -/
def closedFirst : List Event :=
  [.activate "a.txt" "a.txt" "file" "none",
    .answer "a.txt" 0 (.file (some "alpha")) (fun _ => "cell"),
    .activate "b.txt" "b.txt" "file" "none",
    .answer "b.txt" 0 (.file (some "beta")) (fun _ => "cell"),
    .close "a.txt",
    .activate "b.txt" "b.txt" "file" "none",
    .save "b.txt"]

end Zasper.TabSaves
