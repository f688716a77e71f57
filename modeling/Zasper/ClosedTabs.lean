import Zasper.ActiveTabs
import Zasper.NotebookKernels

/-!
# Closed tabs

The four stores of the page that hold something for a tab: the tabs themselves, the
terminals, the kernel of each notebook and the kernels of the panel. Requests for a
session are answered later, or never. What is left of a tab that is closed:
`cleansUp_iff`.
-/
namespace Zasper.ClosedTabs
open Zasper.JsObjects Zasper.JsObjects.JsObject Zasper.Tabs Zasper.ActiveTabs Zasper.Runs
open Zasper.NotebookKernels (Pane contentPanel onScreen onScreen_cases effectBy changeKernelBy)
set_option linter.unusedSimpArgs false

/-! ## The page -/

structure IKernel where
  name : String
  id : String
deriving DecidableEq

structure ITerminal where
  name : String
  id : String
deriving DecidableEq

structure Page where
  /-- The page could not be drawn, and is gone. -/
  crashed : Bool
  fileTabsState : JsObject IfileTab
  panes : List Pane
  terminals : JsObject ITerminal
  terminalsCount : Nat
  /-- The kernel of each notebook, by its path. -/
  notebookKernelMap : JsObject IKernel
  /-- The kernels of the panel, by their ids. -/
  kernels : JsObject IKernel
  /-- The notebooks whose requests for a session are not answered yet. -/
  requested : List String

def start : Page where
  crashed := false
  fileTabsState := defaultFileTabState
  panes := contentPanel defaultFileTabState.values []
  terminals := JsObject.empty
  terminalsCount := 0
  notebookKernelMap := JsObject.empty
  kernels := JsObject.empty
  requested := []

/-- Asks for a session, but for the kernel `none`. -/
def startASession (page : Page) (path kernelspec : String) : Page :=
  let named := { page with
    panes := page.panes.map (fun pane => if pane.data.path = path then { pane with kernelName := kernelspec } else pane) }
  if kernelspec = "none" then named else { named with requested := named.requested ++ [path] }

/-- The request is answered, with the kernel of the session or an error. -/
def answered (page : Page) (request : Nat) (kernel : Option IKernel) : Page :=
  match page.requested[request]? with
  | none => page
  | some path =>
    let page := { page with requested := page.requested.eraseIdx request }
    match kernel with
    | none => page
    | some kernel => { page with
        kernels := page.kernels.assign kernel.id kernel
        notebookKernelMap := page.notebookKernelMap.assign path kernel }

/-- Asks for a session for the notebook of a pane. -/
def startSession (page : Page) (pane : Pane) (kernelspec : String) : Page := startASession page pane.data.path kernelspec

def effect (page : Page) (pane : Pane) : Page := effectBy startSession page pane

/-- Draws the tabs, and runs the effects of the panes. -/
def render (page : Page) (tabs : JsObject IfileTab) : Page :=
  let drawn := { page with fileTabsState := tabs, panes := contentPanel tabs.values page.panes }
  drawn.panes.foldl effect drawn

def activate (page : Page) (name path type kernelspec : String) : Page :=
  match handleTabActivate page.fileTabsState name path type kernelspec with
  | none => { page with crashed := true }
  | some tabs => render page tabs

def openTerminal (page : Page) : Page :=
  let terminalName := "Terminal " ++ Kernels.natText (page.terminalsCount + 1)
  let page := activate page terminalName terminalName "terminal" ""
  { page with
    terminalsCount := page.terminalsCount + 1
    terminals := page.terminals.assign terminalName ⟨terminalName,terminalName⟩ }

def changeKernel (page : Page) (pane : Pane) (value : String) : Page :=
  let forget (kernel : IKernel) : Page :=
    { page with
      notebookKernelMap := page.notebookKernelMap.delete pane.data.path
      kernels := page.kernels.delete kernel.id }
  changeKernelBy startSession (page.notebookKernelMap.get? pane.data.path) forget page pane value

/-- The stores once the button of the tab has been handled; none where a missing entry was
    followed. The kernel of the notebook is deleted from the map of before, which was copied
    already. -/
def handleTabClose (page : Page) (key : String) : Option Page :=
  (Tabs.handleTabClose (page.notebookKernelMap.mapValues (fun _ kernel => kernel.id)) page.fileTabsState key).map
    (fun (tabs,kernelId) => { page with
      fileTabsState := tabs
      terminals := page.terminals.delete key
      kernels :=
        match kernelId with
        | some id => page.kernels.delete id
        | none => page.kernels })

def visible (page : Page) (path : String) : Option Pane := onScreen page.panes path

inductive Event where
  /-- A file or a notebook is opened, or a tab brought to the front. -/
  | activate (name path type kernelspec : String)
  | openTerminal
  | answered (request : Nat) (kernel : Option IKernel)
  | changeKernel (path value : String)
  /-- A kernel was killed in the panel. -/
  | killed (kernelId : String)
  | close (key : String)
deriving DecidableEq

def handle (page : Page) : Event → Page
  | .activate name path type kernelspec => ClosedTabs.activate page name path type kernelspec
  | .openTerminal => ClosedTabs.openTerminal page
  | .answered request kernel => ClosedTabs.answered page request kernel
  | .changeKernel path value =>
    match visible page path with
    | some pane => ClosedTabs.changeKernel page pane value
    | none => page
  | .killed kernelId => { page with kernels := page.kernels.delete kernelId }
  | .close key =>
    match page.fileTabsState.get? key with
    | none => page
    | some tab =>
      if tab.name ≠ "Launcher" then
        match handleTabClose page key with
        | none => page
        | some page => render page page.fileTabsState
      else page

def step (page : Page) (e : Event) : Page × Unit := (if page.crashed then page else handle page e,())

/-! ## What is to be cleaned up -/

/-- A tab without the flags that closing another one may change. -/
def flagless (tab : IfileTab) : IfileTab := { tab with active := false, loadRequired := false }

/-- No entry that is missing is followed, nothing is left of the tab, and everything else
    stays. -/
structure CleansUp (page : Page) (key : String) (after : Page) : Prop where
  closed : handleTabClose page key = some after
  tab : after.fileTabsState.get? key = none
  terminal : after.terminals.get? key = none
  notebook : after.notebookKernelMap.get? key = none
  kernel : ∀ kernel, page.notebookKernelMap.get? key = some kernel → after.kernels.get? kernel.id = none
  otherTabs : ∀ other, other ≠ key →
    (after.fileTabsState.get? other).map flagless = (page.fileTabsState.get? other).map flagless
  otherTerminals : ∀ other, other ≠ key → after.terminals.get? other = page.terminals.get? other
  otherNotebooks : ∀ other, other ≠ key → after.notebookKernelMap.get? other = page.notebookKernelMap.get? other
  otherKernels : ∀ id, (∀ kernel, page.notebookKernelMap.get? key = some kernel → id ≠ kernel.id) →
    after.kernels.get? id = page.kernels.get? id

/-! ## Closing -/

theorem handleTabClose_map {page after : Page} {key : String} (closed : handleTabClose page key = some after) :
    after.notebookKernelMap = page.notebookKernelMap := by
  obtain ⟨updated,-,rfl⟩ := Option.map_eq_some_iff.mp closed
  rfl

/-- A notebook without a kernel is not closed. -/
theorem handleTabClose_missing {page : Page} {key : String} {tab : IfileTab} (found : page.fileTabsState.get? key = some tab)
    (notebook : tab.type = "notebook") (missing : page.notebookKernelMap.get? key = none) : handleTabClose page key = none := by
  simp [handleTabClose,Tabs.handleTabClose,found,notebook,get?_mapValues,missing]

/-- A tab of another type and its terminal are gone, the flags of the other tabs may
    have changed, and the kernels are as they were. -/
theorem handleTabClose_other {page : Page} {key : String} {tab : IfileTab} (found : page.fileTabsState.get? key = some tab)
    (other : tab.type ≠ "notebook") : handleTabClose page key = some { page with
      fileTabsState := ((page.fileTabsState.modify "Launcher" (fun tab => { tab with active := true })).mapValues
        (fun _ tab => { tab with loadRequired := false })).delete key
      terminals := page.terminals.delete key } := by
  simp [handleTabClose,Tabs.handleTabClose,found,other]

theorem get?_closed (tabs : JsObject IfileTab) {key other : String} (different : other ≠ key) :
    ((((tabs.modify "Launcher" (fun tab => { tab with active := true })).mapValues
      (fun _ tab => { tab with loadRequired := false })).delete key).get? other).map flagless =
        (tabs.get? other).map flagless := by
  rw [get?_delete,if_neg different,get?_mapValues,get?_modify,Option.map_map,Option.map_map]
  congr 1
  funext tab
  simp only [Function.comp_apply]
  split_ifs <;> rfl

theorem cleansUp_iff_closable {page : Page} {key : String} {tab : IfileTab} (closable : Closable page.fileTabsState key tab) :
    (∃ after, CleansUp page key after) ↔ tab.type ≠ "notebook" ∧ page.notebookKernelMap.get? key = none := by
  constructor
  · rintro ⟨after,cleans⟩
    have unrecorded : page.notebookKernelMap.get? key = none := by
      rw [← handleTabClose_map cleans.closed]
      exact cleans.notebook
    refine ⟨fun notebook => ?_,unrecorded⟩
    have closed := cleans.closed
    rw [handleTabClose_missing closable.1 notebook unrecorded] at closed
    cases closed
  · rintro ⟨other,unrecorded⟩
    refine ⟨_,handleTabClose_other closable.1 other,?_,?_,unrecorded,?_,fun _ => get?_closed _,?_,fun _ _ => rfl,fun _ _ => rfl⟩
    · rw [get?_delete,if_pos rfl]
    · rw [get?_delete,if_pos rfl]
    · simp [unrecorded]
    · intro different h
      rw [get?_delete,if_neg h]

/-- In every state that is reached, closing a tab cleans up after it if and only if it is no
    notebook and no kernel is recorded under its key. -/
theorem cleansUp_iff (events : List Event) {key : String} {tab : IfileTab}
    (closable : Closable (run step start events).1.fileTabsState key tab) :
    (∃ after, CleansUp (run step start events).1 key after) ↔
      tab.type ≠ "notebook" ∧ (run step start events).1.notebookKernelMap.get? key = none :=
  cleansUp_iff_closable closable

/-- A file is opened, and closed. -/
theorem cleansUp_file :
    (∃ after, CleansUp (run step start [.activate "a.txt" "a.txt" "file" "none"]).1 "a.txt" after) ↔
      "file" ≠ "notebook" ∧
        (run step start [.activate "a.txt" "a.txt" "file" "none"]).1.notebookKernelMap.get? "a.txt" = none :=
  @cleansUp_iff _ "a.txt" (newTab "a.txt" "a.txt" "file" "none") ⟨by decide,by decide⟩

def notebookOpened : List Event :=
  [.activate "a.ipynb" "a.ipynb" "notebook" "python3",.answered 0 (some ⟨"python3","k"⟩)]

/-- The kernel of a notebook is still recorded when its tab is closed. -/
theorem notebook_left :
    ¬ ∀ events key tab, Closable (run step start events).1.fileTabsState key tab →
      ∃ after, CleansUp (run step start events).1 key after := by
  intro always
  obtain ⟨after,cleans⟩ := always notebookOpened "a.ipynb"
    { newTab "a.ipynb" "a.ipynb" "notebook" "python3" with active := true } ⟨by decide,by decide⟩
  have gone := cleans.notebook
  rw [handleTabClose_map cleans.closed] at gone
  revert gone
  decide

/-! ## Paths that were never notebooks -/

/-- Kernels are recorded, and asked for, under the paths in `P` only. -/
structure Inv (P : String → Prop) (page : Page) : Prop where
  tabs : ∀ e ∈ page.fileTabsState.entries, Editor e.2 = .notebookEditor → P e.2.path
  panes : ∀ pane ∈ page.panes, pane.kind = .notebookEditor → P pane.data.path
  requested : ∀ path ∈ page.requested, P path
  recorded : ∀ path kernel, page.notebookKernelMap.get? path = some kernel → P path

section
variable {P : String → Prop} {page : Page}

theorem Inv.startASession (inv : Inv P page) {path : String} (allowed : P path) (kernelspec : String) :
    Inv P (startASession page path kernelspec) := by
  have panes : ∀ pane ∈ page.panes.map (fun pane => if pane.data.path = path then { pane with kernelName := kernelspec } else pane),
      pane.kind = .notebookEditor → P pane.data.path := by
    intro pane member
    obtain ⟨old,inside,rfl⟩ := List.mem_map.mp member
    split_ifs <;> exact inv.panes old inside
  unfold ClosedTabs.startASession
  simp only
  split_ifs
  · exact ⟨inv.tabs,panes,inv.requested,inv.recorded⟩
  · refine ⟨inv.tabs,panes,?_,inv.recorded⟩
    intro other member
    rcases List.mem_append.mp member with old | new
    · exact inv.requested other old
    · exact List.mem_singleton.mp new ▸ allowed

theorem Inv.answered (inv : Inv P page) (request : Nat) (kernel : Option IKernel) : Inv P (answered page request kernel) := by
  unfold ClosedTabs.answered
  cases asked : page.requested[request]? with
  | none => exact inv
  | some path =>
    have fewer : ∀ other ∈ page.requested.eraseIdx request, P other :=
      fun other member => inv.requested other ((List.eraseIdx_sublist ..).subset member)
    cases kernel with
    | none => exact ⟨inv.tabs,inv.panes,fewer,inv.recorded⟩
    | some kernel =>
      refine ⟨inv.tabs,inv.panes,fewer,?_⟩
      intro other recorded found
      rw [get?_assign] at found
      split_ifs at found with here
      · exact here ▸ inv.requested path (List.mem_of_getElem? asked)
      · exact inv.recorded other recorded found

theorem contentPanel_tabs (tabs : List IfileTab) (panes : List Pane) :
    ∀ pane ∈ contentPanel tabs panes, pane.data ∈ tabs ∧ pane.kind = Editor pane.data := by
  intro pane member
  have same : (pane.data,pane.kind) ∈ tabs.map (fun tab => (tab,Editor tab)) := by
    rw [← NotebookKernels.contentPanel_shows tabs panes]
    exact List.mem_map_of_mem member
  obtain ⟨tab,inside,pair⟩ := List.mem_map.mp same
  obtain ⟨rfl,kind⟩ := Prod.mk.inj pair
  exact ⟨inside,kind.symm⟩

theorem Inv.render (inv : Inv P page) {tabs : JsObject IfileTab}
    (allowed : ∀ e ∈ tabs.entries, Editor e.2 = .notebookEditor → P e.2.path) : Inv P (render page tabs) := by
  have panes : ∀ pane ∈ contentPanel tabs.values page.panes, pane.kind = .notebookEditor → P pane.data.path := by
    intro pane member notebook
    obtain ⟨inside,kind⟩ := contentPanel_tabs tabs.values page.panes pane member
    obtain ⟨e,entry,same⟩ := List.mem_map.mp inside
    rw [← same]
    apply allowed e entry
    rw [same,← kind,notebook]
  have effects : ∀ panes : List Pane, (∀ pane ∈ panes, pane.kind = .notebookEditor → P pane.data.path) →
      ∀ page, Inv P page → Inv P (panes.foldl effect page) := by
    intro panes
    induction panes with
    | nil => exact fun _ _ inv => inv
    | cons pane panes ih =>
      intro allowed page inv
      obtain ⟨here,later⟩ := List.forall_mem_cons.mp allowed
      apply ih later
      unfold effect effectBy
      split_ifs with runs
      · exact inv.startASession (here runs.1) pane.data.kernelspec
      · exact inv
  exact effects _ panes _ ⟨allowed,panes,inv.requested,inv.recorded⟩

/-- Tabs that are only changed in their flags. -/
theorem Inv.mapped (inv : Inv P page) {f : String → IfileTab → IfileTab} (quiet : Quiet f) :
    ∀ e ∈ (page.fileTabsState.mapValues f).entries, Editor e.2 = .notebookEditor → P e.2.path := by
  intro e member notebook
  obtain ⟨old,inside,rfl⟩ := List.mem_map.mp member
  obtain ⟨path,kind⟩ := Prod.mk.inj (quiet old.1 old.2).1
  rw [path]
  exact inv.tabs old inside (kind ▸ notebook)

theorem type_of_notebookEditor {tab : IfileTab} (notebook : Editor tab = .notebookEditor) : tab.type = "notebook" := by
  unfold Editor at notebook
  split_ifs at notebook
  assumption

theorem Inv.activate (inv : Inv P page) (name path type kernelspec : String) (allowed : type = "notebook" → P path) :
    Inv P (activate page name path type kernelspec) := by
  unfold ClosedTabs.activate
  cases done : handleTabActivate page.fileTabsState name path type kernelspec with
  | none => exact ⟨inv.tabs,inv.panes,inv.requested,inv.recorded⟩
  | some tabs =>
    apply inv.render
    obtain ⟨f,quiet,⟨opens,rfl⟩ | ⟨-,rfl⟩⟩ := handleTabActivate_cases done
    · intro e member notebook
      rw [add_entries (by simpa using opens.1)] at member
      have split := before_append_after path (page.fileTabsState.mapValues f).entries
      rcases List.mem_append.mp member with early | here
      · exact inv.mapped quiet e (split ▸ List.mem_append_left _ early) notebook
      · rcases List.mem_cons.mp here with rfl | late
        · exact allowed (type_of_notebookEditor notebook)
        · exact inv.mapped quiet e (split ▸ List.mem_append_right _ late) notebook
    · exact inv.mapped quiet

theorem keeps (page : Page) (e : Event) (inv : Inv P page)
    (allowed : ∀ name path kernelspec, e = .activate name path "notebook" kernelspec → P path) : Inv P (step page e).1 := by
  unfold step
  split_ifs
  · exact inv
  · cases e with
    | activate name path type kernelspec =>
      apply inv.activate
      rintro rfl
      exact allowed name path kernelspec rfl
    | openTerminal =>
      have opened := inv.activate ("Terminal " ++ Kernels.natText (page.terminalsCount + 1))
        ("Terminal " ++ Kernels.natText (page.terminalsCount + 1)) "terminal" ""
        (fun same => absurd same (by decide))
      exact ⟨opened.tabs,opened.panes,opened.requested,opened.recorded⟩
    | answered request kernel => exact inv.answered request kernel
    | changeKernel path value =>
      simp only [handle]
      cases shown : visible page path with
      | none => exact inv
      | some pane =>
        obtain ⟨there,-,notebook⟩ := onScreen_cases shown
        have own : P pane.data.path := inv.panes pane there notebook
        simp only [changeKernel,changeKernelBy]
        cases page.notebookKernelMap.get? pane.data.path with
        | none =>
          simp only
          split_ifs
          · exact inv.startASession own value
          · exact inv
        | some kernel =>
          have forgotten : Inv P { page with
              notebookKernelMap := page.notebookKernelMap.delete pane.data.path
              kernels := page.kernels.delete kernel.id } := by
            refine ⟨inv.tabs,inv.panes,inv.requested,?_⟩
            intro other kernel found
            rw [get?_delete] at found
            split_ifs at found
            exact inv.recorded other kernel found
          simp only
          split_ifs
          · exact forgotten.startASession own value
          · exact forgotten
    | killed kernelId => exact ⟨inv.tabs,inv.panes,inv.requested,inv.recorded⟩
    | close key =>
      simp only [handle]
      cases page.fileTabsState.get? key with
      | none => exact inv
      | some tab =>
        simp only
        split_ifs
        · cases closed : handleTabClose page key with
          | none => exact inv
          | some after =>
            obtain ⟨⟨tabs,kernelId⟩,done,rfl⟩ := Option.map_eq_some_iff.mp closed
            obtain ⟨f,_,quiet,rfl,-,-⟩ := handleTabClose_eq done
            have fewer : ∀ e ∈ ((page.fileTabsState.mapValues f).delete key).entries, Editor e.2 = .notebookEditor → P e.2.path :=
              fun e member => inv.mapped quiet e (List.mem_filter.mp member).1
            apply Inv.render _ fewer
            exact ⟨fewer,inv.panes,inv.requested,inv.recorded⟩
        · exact inv

end

/-- No kernel is recorded under a path that was never opened as a notebook. -/
theorem unrecorded_of_unopened (events : List Event) {path : String}
    (unopened : ∀ name kernelspec, .activate name path "notebook" kernelspec ∉ events) :
    (run step start events).1.notebookKernelMap.get? path = none := by
  have launcher : ∀ tab ∈ defaultFileTabState.values, Editor tab ≠ .notebookEditor := by decide
  have first : Inv (fun path => ∃ name kernelspec, .activate name path "notebook" kernelspec ∈ events) start := by
    refine ⟨?_,?_,by simp [start],by simp [start,JsObject.empty,get?]⟩
    · intro e member notebook
      exact absurd notebook (launcher e.2 (List.mem_map_of_mem member))
    · intro pane member notebook
      obtain ⟨inside,kind⟩ := contentPanel_tabs _ _ pane member
      exact absurd (kind ▸ notebook) (launcher pane.data inside)
  have keep := @run_keeps _ _ _ step (fun _ e => e ∈ events)
    (Inv fun path => ∃ name kernelspec, .activate name path "notebook" kernelspec ∈ events) (fun _ => True)
  have inv := (keep (by
    intro page e inv member
    refine ⟨keeps page e inv ?_,trivial⟩
    rintro name path kernelspec rfl
    exact ⟨name,kernelspec,member⟩) first (meets_of_forall fun e member _ => member)).1
  apply Option.eq_none_iff_forall_ne_some.mpr
  intro kernel found
  obtain ⟨name,kernelspec,opened⟩ := inv.recorded path kernel found
  exact unopened name kernelspec opened

end Zasper.ClosedTabs
