import Zasper.KernelRequests
import Zasper.Tabs

/-!
# The kernels of the notebooks

The page with its notebook tabs and the server behind it, one action after the other:
a notebook is opened, its kernel changed or restarted, its tab closed, a kernel killed
in the panel. The requests of the page end no kernel, so that a kernel that the page
gives up goes on without a tab: `noOrphans_iff` says which actions give one up.
-/
namespace Zasper.NotebookKernels
open Zasper.Maps Zasper.JsObjects Zasper.JsObjects.JsObject Zasper.Tabs Zasper.Runs
open Zasper.Kernels Zasper.KernelManagers Zasper.KernelSupervisor Zasper.KernelRequests
set_option linter.unusedSimpArgs false

/-! ## The page -/

/-- The component that shows a tab, with the state of a notebook editor. -/
structure Pane where
  data : IfileTab
  kind : Kind
  kernelName : String
  session : Option SessionModel
deriving DecidableEq

/-- The pane at an index once its tab is `tab`: kept where the component stays the same. -/
def reconcile (tab : IfileTab) : Option Pane → Pane
  | some pane => if pane.kind = Editor tab then { pane with data := tab } else ⟨tab,Editor tab,tab.kernelspec,none⟩
  | none => ⟨tab,Editor tab,tab.kernelspec,none⟩

def contentPanel : List IfileTab → List Pane → List Pane
  | [], _ => []
  | tab :: tabs, panes => reconcile tab panes.head? :: contentPanel tabs panes.tail

/-- The notebook editor of the path, where it is on screen. -/
def onScreen (panes : List Pane) (path : String) : Option Pane :=
  panes.find? (fun pane => pane.data.path = path && pane.kind = .notebookEditor && pane.data.active)

section
variable {State : Type} (startASession : State → Pane → String → State)

/-- The effect that runs when the tab of a pane changes, by the way in which the page starts
    a session for a pane and a kernel. -/
def effectBy (page : State) (pane : Pane) : State :=
  if pane.kind = .notebookEditor ∧ pane.data.loadRequired = true then startASession page pane pane.data.kernelspec else page

/-- Another kernel for a pane; the one that is recorded is forgotten. -/
def changeKernelBy {Kernel : Type} (recorded : Option Kernel) (forget : Kernel → State) (page : State) (pane : Pane)
    (value : String) : State :=
  let page :=
    match recorded with
    | some kernel => forget kernel
    | none => page
  if pane.kernelName ≠ value then startASession page pane value else page

end

structure Page where
  /-- The page could not be drawn, and is gone. -/
  crashed : Bool
  fileTabsState : JsObject IfileTab
  panes : List Pane
  /-- The id of the kernel of each notebook, by its path. -/
  notebookKernelMap : JsObject String
  /-- The ids of the kernels that the panel lists. -/
  kernels : JsObject String
  server : Supervisor

def visible (page : Page) (path : String) : Option Pane := onScreen page.panes path

/-- The page with its tabs drawn. -/
def drawn (page : Page) (tabs : JsObject IfileTab) : Page :=
  { page with fileTabsState := tabs, panes := contentPanel tabs.values page.panes }

/-- Changes the pane of the path. -/
def Page.put (page : Page) (path : String) (change : Pane → Pane) : Page :=
  { page with panes := page.panes.map (fun pane => if pane.data.path = path then change pane else pane) }

section
variable (mac : List UInt8 → List UInt8 → List UInt8) (token : String) (outside : KernelRequests.Outside)

/-- Starts a session for the notebook. The kernel is recorded before the page connects to
    it. -/
def startASession (page : Page) (path name type kernelspec : String) : Page :=
  let page := page.put path (fun pane => { pane with kernelName := kernelspec })
  if kernelspec = "none" then page
  else
    let (server,reply) := serve mac outside page.server (createSessionRequest token path name type kernelspec)
    match reply with
    | .created data =>
      let recorded := { page with
        kernels := page.kernels.assign data.kernel.id data.kernel.id
        notebookKernelMap := page.notebookKernelMap.assign data.path data.kernel.id }
      { recorded.put path (fun pane => { pane with session := some data }) with
        server := (serve mac outside server (channelsRequest data.kernel.id data.id)).1 }
    | _ => { page with server := server }

/-- Starts a session for the notebook of a pane. -/
def startSession (page : Page) (pane : Pane) (kernelspec : String) : Page :=
  startASession mac token outside page pane.data.path pane.data.name pane.data.type kernelspec

def effect (page : Page) (pane : Pane) : Page := effectBy (startSession mac token outside) page pane

/-- Draws the tabs, and runs the effects of the panes. -/
def render (page : Page) (tabs : JsObject IfileTab) : Page :=
  let page := drawn page tabs
  page.panes.foldl (effect mac token outside) page

def changeKernel (page : Page) (pane : Pane) (value : String) : Page :=
  let forget (kernelId : String) : Page :=
    { page with
      notebookKernelMap := page.notebookKernelMap.delete pane.data.path
      kernels := page.kernels.delete kernelId }
  changeKernelBy (startSession mac token outside) (page.notebookKernelMap.get? pane.data.path) forget page pane value

/-- Ends the session and starts another one; the answer to the first request is not
    looked at. -/
def restartKernel (page : Page) (pane : Pane) : Page :=
  match pane.session with
  | none => page
  | some session =>
    let ended := { page with server := (serve mac outside page.server (deleteSessionRequest token session.id)).1 }
    startASession mac token outside ended pane.data.path pane.data.name pane.data.type pane.kernelName

/-- Closes a tab. The kernel of a notebook is not forgotten: the entry is deleted from the
    object that the map was copied from. -/
def closeTab (page : Page) (key : String) : Page :=
  match handleTabClose page.notebookKernelMap page.fileTabsState key with
  | none => page
  | some (tabs,none) => render mac token outside page tabs
  | some (tabs,some kernelId) =>
    let killed := { page with
      server := (serve mac outside page.server (deleteKernelRequest token kernelId)).1
      kernels := page.kernels.delete kernelId }
    render mac token outside killed tabs

/-- Kills a kernel that the panel lists. -/
def killKernel (page : Page) (key : String) : Page :=
  match page.kernels.get? key with
  | none => page
  | some id =>
    let (server,reply) := serve mac outside page.server (deleteKernelRequest token id)
    match reply with
    | .done => { page with server := server, kernels := page.kernels.delete key }
    | _ => { page with server := server }

end

inductive Action where
  | openNotebook (name path kernelspec : String)
  | changeKernel (path value : String)
  | restartKernel (path : String)
  /-- The kernel is restarted, and then all cells are run. -/
  | restartAndExecuteAllCells (path : String)
  | close (key : String)
  | kill (key : String)

section
variable (mac : List UInt8 → List UInt8 → List UInt8) (token : String)

/-- An action, its requests answered. Tabs with the name `Launcher` have no button to close
    them. -/
def act (page : Page) (outside : KernelRequests.Outside) : Action → Page
  | .openNotebook name path kernelspec =>
    match handleTabActivate page.fileTabsState name path "notebook" kernelspec with
    | none => { page with crashed := true }
    | some tabs => render mac token outside page tabs
  | .changeKernel path value =>
    match visible page path with
    | some pane => NotebookKernels.changeKernel mac token outside page pane value
    | none => page
  | .restartKernel path | .restartAndExecuteAllCells path =>
    match visible page path with
    | some pane => NotebookKernels.restartKernel mac token outside page pane
    | none => page
  | .close key =>
    match page.fileTabsState.get? key with
    | some tab => if tab.name ≠ "Launcher" then closeTab mac token outside page key else page
    | none => page
  | .kill key => NotebookKernels.killKernel mac token outside page key

def step (page : Page) (e : Action × KernelRequests.Outside) : Page × Unit :=
  (if page.crashed then page else act mac token page e.2 e.1,())

end

/-- The page when it has been loaded, and a server that was just started. -/
def start : Page :=
  { crashed := false
    fileTabsState := defaultFileTabState
    panes := contentPanel defaultFileTabState.values []
    notebookKernelMap := JsObject.empty
    kernels := JsObject.empty
    server := setUp }

/-! ## Orphans -/

/-- The kernel is the current one of an open notebook tab. -/
def Current (page : Page) (kernelId : String) : Prop :=
  ∃ path tab, page.fileTabsState.get? path = some tab ∧ Editor tab = .notebookEditor ∧
    page.notebookKernelMap.get? path = some kernelId

/-- Every kernel of the server is the current one of an open notebook tab. -/
def NoOrphans (page : Page) : Prop := ∀ e ∈ page.server.registry.kernels.entries, Current page e.1

/-- A restart starts a new session. -/
def Restarts (page : Page) (outside : KernelRequests.Outside) (path : String) : Prop :=
  ∃ pane, visible page path = some pane ∧ pane.session ≠ none ∧ pane.kernelName ≠ "none" ∧
    newProcess page.server outside.start ≠ none

/-- The action does not give up a kernel that is recorded for a notebook. -/
def Careful (page : Page) (e : Action × KernelRequests.Outside) : Prop :=
  page.crashed = true ∨
  match e.1 with
  | .openNotebook _ _ _ => True
  | .changeKernel path _ => visible page path ≠ none → page.notebookKernelMap.get? path = none
  | .restartKernel path | .restartAndExecuteAllCells path =>
    Restarts page e.2 path → page.notebookKernelMap.get? path = none
  | .close key => ∀ tab, page.fileTabsState.get? key = some tab → Editor tab = .notebookEditor → tab.name ≠ "Launcher" →
    page.notebookKernelMap.get? key = none
  | .kill _ => True

/-! ## Starting a session -/

/-- A session would be started with a kernel. -/
def Begins (page : Page) (outside : KernelRequests.Outside) (kernelspec : String) : Prop :=
  kernelspec ≠ "none" ∧ newProcess page.server outside.start ≠ none

/-- What the start of a session leaves as it is. -/
structure SameTabs (page page' : Page) : Prop where
  tabs : page'.fileTabsState = page.fileTabsState
  panes : page'.panes.map (fun pane => (pane.data,pane.kind)) = page.panes.map (fun pane => (pane.data,pane.kind))

/-- What the start of a session can do. -/
inductive Started (outside : KernelRequests.Outside) (page : Page) (path kernelspec : String) (page' : Page) : Prop
  | unstarted (idle : ¬ Begins page outside kernelspec) (map : page'.notebookKernelMap = page.notebookKernelMap)
      (kernels : page'.server.registry.kernels = page.server.registry.kernels)
  | launched (km : KernelManager) (begins : Begins page outside kernelspec)
      (map : page'.notebookKernelMap = page.notebookKernelMap.assign path (newKernelId page.server outside.start))
      (kernels : page'.server.registry.kernels =
        page.server.registry.kernels.insert (newKernelId page.server outside.start) km)

theorem put_panes (page : Page) (path : String) (change : Pane → Pane)
    (keeps : ∀ pane, (change pane).data = pane.data ∧ (change pane).kind = pane.kind) :
    (page.put path change).panes.map (fun pane => (pane.data,pane.kind)) =
      page.panes.map (fun pane => (pane.data,pane.kind)) := by
  simp only [Page.put,List.map_map]
  refine List.map_congr_left ?_
  intro pane _
  simp only [Function.comp_apply]
  split_ifs
  · rw [(keeps pane).1,(keeps pane).2]
  · rfl

@[simp] theorem put_server (page : Page) (path : String) (change : Pane → Pane) : (page.put path change).server = page.server :=
  rfl

section
variable {mac : List UInt8 → List UInt8 → List UInt8} {token : String} {outside : KernelRequests.Outside}

theorem startASession_cases {page : Page} (serving : Serving page.server) (path name type kernelspec : String) :
    SameTabs page (startASession mac token outside page path name type kernelspec) ∧
      Serving (startASession mac token outside page path name type kernelspec).server ∧
      Started outside page path kernelspec (startASession mac token outside page path name type kernelspec) := by
  unfold startASession
  have named := put_panes page path (fun pane => { pane with kernelName := kernelspec }) (fun _ => ⟨rfl,rfl⟩)
  by_cases noKernel : kernelspec = "none"
  · rw [if_pos noKernel]
    exact ⟨⟨rfl,named⟩,serving,.unstarted (fun begins => begins.1 noKernel) rfl rfl⟩
  · rw [if_neg noKernel]
    rcases serve_createSession_cases mac outside serving.live serving.named token path name type kernelspec with
      ⟨noProcess,state,noSession⟩ | ⟨pid,process,answer⟩
    · revert state noSession
      rw [put_server]
      generalize serve mac outside page.server (createSessionRequest token path name type kernelspec) = answer
      obtain ⟨after,reply⟩ := answer
      rintro rfl noSession
      cases reply with
      | created session => exact absurd rfl (noSession session)
      | _ => exact ⟨⟨rfl,named⟩,serving.claimed _,.unstarted (fun begins => begins.2 noProcess) rfl rfl⟩
    · rw [put_server,answer]
      dsimp only
      generalize connected : serve mac outside _ (channelsRequest _ _) = last
      have same : SameKernels (launched page.server (asked path name type kernelspec) outside.start pid) last.1 := by
        rw [← connected]
        exact serve_channels mac outside _ _ _
      refine ⟨⟨rfl,?_⟩,(serving.launched _ _ pid).same same,.launched _ ⟨noKernel,by simp [process]⟩ rfl same.kernels⟩
      exact (put_panes _ path (fun pane => { pane with session := some _ }) (fun _ => ⟨rfl,rfl⟩)).trans named

theorem startASession_crashed (page : Page) (path name type kernelspec : String) :
    (startASession mac token outside page path name type kernelspec).crashed = page.crashed := by
  unfold startASession
  by_cases noKernel : kernelspec = "none"
  · rw [if_pos noKernel]
    rfl
  · rw [if_neg noKernel,put_server]
    generalize serve mac outside page.server (createSessionRequest token path name type kernelspec) = answer
    obtain ⟨server,reply⟩ := answer
    cases reply <;> rfl

end

/-! ## The page and the server agree -/

/-- The kernels that are recorded are those of the server, each for one notebook. -/
structure Matched (map : JsObject String) (kernels : Dict String KernelManager) : Prop where
  active : ∀ path kernelId, map.get? path = some kernelId → ∃ km, kernels.get? kernelId = some km
  distinct : ∀ path other kernelId, map.get? path = some kernelId → map.get? other = some kernelId → path = other
  covered : ∀ kernelId km, kernels.get? kernelId = some km → ∃ path, map.get? path = some kernelId

/-- A new kernel is recorded for a notebook that had none. -/
theorem Matched.assign {map : JsObject String} {kernels : Dict String KernelManager} (matched : Matched map kernels)
    {path kernelId : String} (unrecorded : map.get? path = none) (new : kernels.get? kernelId = none)
    (km : KernelManager) : Matched (map.assign path kernelId) (kernels.insert kernelId km) := by
  have unused : ∀ other, map.get? other ≠ some kernelId := by
    intro other recorded
    obtain ⟨old,known⟩ := matched.active other kernelId recorded
    simp [new] at known
  refine ⟨?_,?_,?_⟩
  · intro other id recorded
    rw [get?_assign] at recorded
    rw [Dict.get?_insert]
    split_ifs at recorded with here
    · obtain rfl := Option.some.inj recorded
      exact ⟨km,by simp⟩
    · have old : id ≠ kernelId := fun same => unused other (same ▸ recorded)
      rw [if_neg old]
      exact matched.active other id recorded
  · intro first second id recordedFirst recordedSecond
    rw [get?_assign] at recordedFirst recordedSecond
    split_ifs at recordedFirst recordedSecond with hereFirst hereSecond hereSecond
    · exact hereFirst.trans hereSecond.symm
    · exact absurd (recordedSecond.trans recordedFirst.symm) (unused second)
    · exact absurd (recordedFirst.trans recordedSecond.symm) (unused first)
    · exact matched.distinct first second id recordedFirst recordedSecond
  · intro id known exists'
    rw [Dict.get?_insert] at exists'
    split_ifs at exists' with same
    · exact ⟨path,by rw [get?_assign,if_pos rfl,same]⟩
    · obtain ⟨other,recorded⟩ := matched.covered id known exists'
      have different : other ≠ path := by
        rintro rfl
        simp [unrecorded] at recorded
      exact ⟨other,by rw [get?_assign,if_neg different,recorded]⟩

/-- The path has an open notebook tab. -/
def OpenNotebook (page : Page) (path : String) : Prop :=
  ∃ tab, page.fileTabsState.get? path = some tab ∧ Editor tab = .notebookEditor

structure Inv (page : Page) : Prop where
  serving : Serving page.server
  matched : Matched page.notebookKernelMap page.server.registry.kernels
  recorded : ∀ path kernelId, page.notebookKernelMap.get? path = some kernelId → OpenNotebook page path
  named : Named page.fileTabsState
  shown : page.panes.map (fun pane => (pane.data,pane.kind)) =
    page.fileTabsState.values.map (fun tab => (tab,Editor tab))

theorem Inv.noOrphans {page : Page} (inv : Inv page) : NoOrphans page := by
  intro e member
  obtain ⟨path,recorded⟩ := inv.matched.covered e.1 e.2 (Dict.get?_eq_some.mpr member)
  obtain ⟨tab,found,notebook⟩ := inv.recorded path e.1 recorded
  exact ⟨path,tab,found,notebook,recorded⟩

/-- A kernel of the server that is recorded for no open notebook. -/
theorem orphaned {page : Page} {kernelId : String} {km : KernelManager}
    (known : page.server.registry.kernels.get? kernelId = some km)
    (closed : ∀ path, page.notebookKernelMap.get? path = some kernelId → ¬ OpenNotebook page path) : ¬ NoOrphans page := by
  intro noOrphans
  obtain ⟨path,tab,found,notebook,recorded⟩ := noOrphans _ (Dict.get?_eq_some.mp known)
  exact closed path recorded ⟨tab,found,notebook⟩

theorem OpenNotebook.same {page page' : Page} (tabs : page'.fileTabsState = page.fileTabsState) {path : String}
    (opened : OpenNotebook page path) : OpenNotebook page' path := by
  unfold OpenNotebook
  rw [tabs]
  exact opened

section
variable {mac : List UInt8 → List UInt8 → List UInt8} {token : String} {outside : KernelRequests.Outside} {page : Page}

/-- A session may be started for an open notebook for which no kernel is recorded. -/
theorem startASession_keeps (inv : Inv page) {path : String} (opened : OpenNotebook page path) {kernelspec : String}
    (unrecorded : Begins page outside kernelspec → page.notebookKernelMap.get? path = none) (name type : String) :
    Inv (startASession mac token outside page path name type kernelspec) := by
  obtain ⟨same,serving,started⟩ :=
    @startASession_cases mac token outside page inv.serving path name type kernelspec
  generalize startASession mac token outside page path name type kernelspec = page' at same serving started ⊢
  refine ⟨serving,?_,?_,?_,?_⟩
  · cases started with
    | unstarted idle map kernels =>
      rw [map,kernels]
      exact inv.matched
    | launched km begins map kernels =>
      rw [map,kernels]
      exact inv.matched.assign (unrecorded begins) (newKernelId_unknown _ _ inv.serving.issued) km
  · intro other kernelId recorded
    refine OpenNotebook.same same.tabs ?_
    cases started with
    | unstarted idle map kernels => exact inv.recorded other kernelId (map ▸ recorded)
    | launched km begins map kernels =>
      rw [map,get?_assign] at recorded
      split_ifs at recorded with here
      · exact here ▸ opened
      · exact inv.recorded other kernelId recorded
  · rw [same.tabs]
    exact inv.named
  · rw [same.panes,same.tabs]
    exact inv.shown

/-- A session that replaces a kernel, or starts when it has been forgotten, leaves the
    kernel to itself. -/
theorem startASession_orphans (serving : Serving page.server) {path kernelId : String} {km : KernelManager}
    (known : page.server.registry.kernels.get? kernelId = some km)
    (only : ∀ other, page.notebookKernelMap.get? other = some kernelId → other = path) {kernelspec : String}
    (givenUp : Begins page outside kernelspec ∨ page.notebookKernelMap.get? path ≠ some kernelId) (name type : String) :
    ¬ NoOrphans (startASession mac token outside page path name type kernelspec) := by
  obtain ⟨same,-,started⟩ :=
    @startASession_cases mac token outside page serving path name type kernelspec
  generalize startASession mac token outside page path name type kernelspec = page' at same started ⊢
  cases started with
  | unstarted idle map kernels =>
    have known' : page'.server.registry.kernels.get? kernelId = some km := by rw [kernels,known]
    refine orphaned known' (fun other recorded => absurd recorded ?_)
    rw [map]
    intro recorded
    exact givenUp.resolve_left idle (only other recorded ▸ recorded)
  | launched new begins map kernels =>
    have old : kernelId ≠ newKernelId page.server outside.start := by
      rintro rfl
      simp [newKernelId_unknown _ _ serving.issued] at known
    have known' : page'.server.registry.kernels.get? kernelId = some km := by
      rw [kernels,Dict.get?_insert_other _ old,known]
    refine orphaned known' (fun other recorded => absurd recorded ?_)
    rw [map,get?_assign]
    split_ifs with here
    · exact fun same => old (Option.some.inj same).symm
    · exact fun recorded => here (only other recorded)

end

/-! ## Drawing the tabs -/

theorem contentPanel_shows (tabs : List IfileTab) (panes : List Pane) :
    (contentPanel tabs panes).map (fun pane => (pane.data,pane.kind)) = tabs.map (fun tab => (tab,Editor tab)) := by
  have shows : ∀ tab pane, ((reconcile tab pane).data,(reconcile tab pane).kind) = (tab,Editor tab) := by
    intro tab pane
    cases pane with
    | none => rfl
    | some pane =>
      simp only [reconcile]
      split_ifs with same
      · rw [same]
      · rfl
  induction tabs generalizing panes with
  | nil => rfl
  | cons tab tabs ih => rw [contentPanel,List.map_cons,List.map_cons,ih,shows]

/-- The tabs may change as long as the notebooks with a kernel stay open. -/
theorem Inv.drawn {page : Page} (inv : Inv page) {tabs : JsObject IfileTab} (named : Named tabs)
    (stays : ∀ path kernelId, page.notebookKernelMap.get? path = some kernelId →
      ∃ tab, tabs.get? path = some tab ∧ Editor tab = .notebookEditor) : Inv (drawn page tabs) where
  serving := inv.serving
  matched := inv.matched
  recorded := stays
  named := named
  shown := contentPanel_shows _ _

theorem Inv.forget {page : Page} (inv : Inv page) (kernels : JsObject String) : Inv { page with kernels := kernels } :=
  ⟨inv.serving,inv.matched,inv.recorded,inv.named,inv.shown⟩

/-- A pane shows an open tab, under its path. -/
theorem Inv.pane {page : Page} (inv : Inv page) {pane : Pane} (member : pane ∈ page.panes) :
    page.fileTabsState.get? pane.data.path = some pane.data ∧ pane.kind = Editor pane.data := by
  have shown : (pane.data,pane.kind) ∈ page.fileTabsState.values.map (fun tab => (tab,Editor tab)) := by
    rw [← inv.shown]
    exact List.mem_map_of_mem member
  obtain ⟨tab,there,same⟩ := List.mem_map.mp shown
  obtain ⟨rfl,kind⟩ := Prod.mk.inj same
  obtain ⟨e,entry,data⟩ := List.mem_map.mp there
  refine ⟨get?_eq_some.mpr ?_,kind.symm⟩
  rw [← data,inv.named e entry]
  exact entry

section
variable {mac : List UInt8 → List UInt8 → List UInt8} {token : String} {outside : KernelRequests.Outside}

/-- The effects of panes that load are starts of sessions for notebooks without a kernel. -/
theorem foldl_effect {page : Page} (inv : Inv page) {panes : List Pane} (distinct : (panes.map (·.data.path)).Nodup)
    (loads : ∀ pane ∈ panes, pane.kind = .notebookEditor ∧ pane.data.loadRequired = true →
      OpenNotebook page pane.data.path ∧ page.notebookKernelMap.get? pane.data.path = none) :
    Inv (panes.foldl (effect mac token outside) page) := by
  induction panes generalizing page with
  | nil => exact inv
  | cons pane panes ih =>
    obtain ⟨here,later⟩ := List.forall_mem_cons.mp loads
    obtain ⟨apart,distinctLater⟩ := List.nodup_cons.mp distinct
    rw [List.foldl_cons,effect,effectBy,startSession]
    split_ifs with loading
    · obtain ⟨opened,unrecorded⟩ := here loading
      have next := @startASession_keeps mac token outside page inv pane.data.path opened pane.data.kernelspec
        (fun _ => unrecorded) pane.data.name pane.data.type
      obtain ⟨same,-,started⟩ := @startASession_cases mac token outside page inv.serving pane.data.path pane.data.name
        pane.data.type pane.data.kernelspec
      refine ih next distinctLater ?_
      intro other member loading
      obtain ⟨openedOther,unrecordedOther⟩ := later other member loading
      have different : other.data.path ≠ pane.data.path := fun same => apart (List.mem_map.mpr ⟨other,member,same⟩)
      refine ⟨openedOther.same same.tabs,?_⟩
      cases started with
      | unstarted idle map kernels => rw [map,unrecordedOther]
      | launched km begins map kernels => rw [map,get?_assign,if_neg different,unrecordedOther]
    · exact ih inv distinctLater later

theorem foldl_effect_idle (page : Page) {panes : List Pane} (idle : ∀ pane ∈ panes, pane.data.loadRequired = false) :
    panes.foldl (effect mac token outside) page = page := by
  induction panes with
  | nil => rfl
  | cons pane panes ih =>
    obtain ⟨here,later⟩ := List.forall_mem_cons.mp idle
    rw [List.foldl_cons,effect,effectBy,if_neg (by simp [here]),ih later]

end

/-! ## Actions that give up no kernel -/

/-- The panes have paths of their own. -/
theorem Inv.distinct {page : Page} (inv : Inv page) : (page.panes.map (·.data.path)).Nodup := by
  have keys : page.panes.map (·.data.path) = page.fileTabsState.entries.map (·.1) := by
    have shown := congrArg (List.map (fun shown : IfileTab × Kind => shown.1.path)) inv.shown
    simp only [List.map_map,Function.comp_def,values] at shown
    rw [shown]
    exact List.map_congr_left inv.named
  rw [keys]
  exact List.pairwise_map.mpr (page.fileTabsState.ordered.imp (fun h => h.1))

theorem onScreen_cases {panes : List Pane} {path : String} {pane : Pane} (found : onScreen panes path = some pane) :
    pane ∈ panes ∧ pane.data.path = path ∧ pane.kind = .notebookEditor := by
  have shows := List.find?_some found
  simp only [Bool.and_eq_true,decide_eq_true_eq] at shows
  exact ⟨List.mem_of_find?_eq_some found,shows.1.1,shows.1.2⟩

/-- A notebook on screen is open. -/
theorem Inv.visible {page : Page} (inv : Inv page) {path : String} {pane : Pane} (found : visible page path = some pane) :
    pane.data.path = path ∧ OpenNotebook page path := by
  obtain ⟨member,rfl,notebook⟩ := onScreen_cases found
  obtain ⟨there,kind⟩ := inv.pane member
  exact ⟨rfl,pane.data,there,kind ▸ notebook⟩

section
variable {mac : List UInt8 → List UInt8 → List UInt8} {token : String} {outside : KernelRequests.Outside} {page : Page}

theorem openNotebook_keeps (inv : Inv page) {tabs : JsObject IfileTab} {name path kernelspec : String}
    (done : handleTabActivate page.fileTabsState name path "notebook" kernelspec = some tabs) :
    Inv (render mac token outside page tabs) := by
  have shown : Inv (drawn page tabs) := by
    refine inv.drawn (activated_named inv.named done) ?_
    intro other kernelId recorded
    obtain ⟨tab,found,notebook⟩ := inv.recorded other kernelId recorded
    obtain ⟨kept,there,same⟩ := activated_stays done found
    exact ⟨kept,there,(Prod.mk.inj same).2.trans notebook⟩
  refine foldl_effect shown shown.distinct ?_
  intro pane member loading
  obtain ⟨there,kind⟩ := shown.pane member
  have value : pane.data ∈ tabs.values := List.mem_map.mpr ⟨_,get?_eq_some.mp there,rfl⟩
  obtain ⟨opens,new⟩ := activated_loads done value loading.2
  refine ⟨⟨pane.data,there,kind ▸ loading.1⟩,?_⟩
  have here : pane.data.path = path := by rw [new]; rfl
  rw [here]
  cases recorded : page.notebookKernelMap.get? path with
  | none => exact recorded
  | some kernelId =>
    obtain ⟨tab,found,-⟩ := inv.recorded path kernelId recorded
    simp [get?_eq_none.mpr opens.1] at found

theorem changeKernel_keeps (inv : Inv page) {path : String} {pane : Pane} (found : visible page path = some pane)
    (unrecorded : page.notebookKernelMap.get? path = none) (value : String) :
    Inv (changeKernel mac token outside page pane value) := by
  obtain ⟨rfl,opened⟩ := inv.visible found
  unfold changeKernel changeKernelBy
  simp only [unrecorded]
  split_ifs
  · exact startASession_keeps inv opened (fun _ => unrecorded) _ _
  · exact inv

theorem restartKernel_keeps (inv : Inv page) {path : String} {pane : Pane} (found : visible page path = some pane)
    (unrecorded : Restarts page outside path → page.notebookKernelMap.get? path = none) :
    Inv (restartKernel mac token outside page pane) := by
  obtain ⟨same,opened⟩ := inv.visible found
  unfold restartKernel
  cases session : pane.session with
  | none => exact inv
  | some old =>
    dsimp only
    rw [serve_deleteSession]
    refine startASession_keeps inv (same.symm ▸ opened) (fun begins => ?_) _ _
    rw [same]
    exact unrecorded ⟨pane,found,by simp [session],begins.1,begins.2⟩

theorem closeTab_cases (page : Page) (key : String) :
    (closeTab mac token outside page key = page ∧
        handleTabClose page.notebookKernelMap page.fileTabsState key = none) ∨
      ∃ tabs kernelId kernels, handleTabClose page.notebookKernelMap page.fileTabsState key = some (tabs,kernelId) ∧
        closeTab mac token outside page key = drawn { page with kernels := kernels } tabs := by
  unfold closeTab
  cases done : handleTabClose page.notebookKernelMap page.fileTabsState key with
  | none => exact .inl ⟨rfl,rfl⟩
  | some closed =>
    obtain ⟨tabs,kernelId⟩ := closed
    have idle : ∀ page' : Page, render mac token outside page' tabs = drawn page' tabs := by
      intro page'
      refine foldl_effect_idle _ ?_
      intro pane member
      have shown : (pane.data,pane.kind) ∈ tabs.values.map (fun tab => (tab,Editor tab)) := by
        rw [← contentPanel_shows tabs.values page'.panes]
        exact List.mem_map_of_mem member
      obtain ⟨tab,there,same⟩ := List.mem_map.mp shown
      rw [← (Prod.mk.inj same).1]
      exact closed_loads done there
    cases kernelId with
    | none => exact .inr ⟨tabs,none,page.kernels,rfl,idle page⟩
    | some kernelId =>
      dsimp only
      rw [serve_deleteKernel,idle]
      exact .inr ⟨tabs,_,_,rfl,rfl⟩

theorem killKernel_eq (page : Page) (key : String) :
    ∃ kernels, killKernel mac token outside page key = { page with kernels := kernels } := by
  unfold killKernel
  cases page.kernels.get? key with
  | none => exact ⟨page.kernels,rfl⟩
  | some id =>
    dsimp only
    rw [serve_deleteKernel]
    exact ⟨_,rfl⟩

theorem closeTab_keeps (inv : Inv page) {key : String} {tab : IfileTab} (found : page.fileTabsState.get? key = some tab)
    (unrecorded : Editor tab = .notebookEditor → page.notebookKernelMap.get? key = none) :
    Inv (closeTab mac token outside page key) := by
  rcases @closeTab_cases mac token outside page key with ⟨same,-⟩ | ⟨tabs,closed,kernels,done,same⟩
  · rw [same]
    exact inv
  · rw [same]
    refine (inv.forget kernels).drawn (closed_named inv.named done) ?_
    intro path kernelId recorded
    have recorded : page.notebookKernelMap.get? path = some kernelId := recorded
    obtain ⟨other,there,notebook⟩ := inv.recorded path kernelId recorded
    have different : path ≠ key := by
      rintro rfl
      obtain rfl := Option.some.inj (found.symm.trans there)
      simp [unrecorded notebook] at recorded
    obtain ⟨kept,open',same⟩ := closed_stays done different there
    exact ⟨kept,open',(Prod.mk.inj same).2.trans notebook⟩

end

/-! ## Actions that give up a kernel -/

section
variable {mac : List UInt8 → List UInt8 → List UInt8} {token : String} {outside : KernelRequests.Outside} {page : Page}

theorem changeKernel_orphans (inv : Inv page) {pane : Pane} {kernelId : String}
    (recorded : page.notebookKernelMap.get? pane.data.path = some kernelId) (value : String) :
    ¬ NoOrphans (changeKernel mac token outside page pane value) := by
  obtain ⟨km,known⟩ := inv.matched.active _ kernelId recorded
  have forgotten : ∀ other, (page.notebookKernelMap.delete pane.data.path).get? other ≠ some kernelId := by
    intro other there
    rw [get?_delete] at there
    split_ifs at there with here
    exact here (inv.matched.distinct other _ kernelId there recorded)
  unfold changeKernel changeKernelBy
  simp only [recorded]
  split_ifs
  · apply startASession_orphans
    · exact inv.serving
    · exact known
    · exact fun other there => absurd there (forgotten other)
    · exact .inr (forgotten _)
  · apply orphaned
    · exact known
    · exact fun other there => absurd there (forgotten other)

theorem restartKernel_orphans (inv : Inv page) {pane : Pane} {kernelId : String}
    (recorded : page.notebookKernelMap.get? pane.data.path = some kernelId) (session : pane.session ≠ none)
    (begins : Begins page outside pane.kernelName) : ¬ NoOrphans (restartKernel mac token outside page pane) := by
  obtain ⟨km,known⟩ := inv.matched.active _ kernelId recorded
  obtain ⟨old,isOld⟩ := Option.ne_none_iff_exists'.mp session
  unfold restartKernel
  simp only [isOld]
  rw [serve_deleteSession]
  refine startASession_orphans inv.serving known (fun other there => ?_) (.inl begins) _ _
  exact inv.matched.distinct other _ kernelId there recorded

theorem closeTab_orphans (inv : Inv page) {key kernelId : String} {tab : IfileTab}
    (recorded : page.notebookKernelMap.get? key = some kernelId) (found : page.fileTabsState.get? key = some tab) :
    ¬ NoOrphans (closeTab mac token outside page key) := by
  obtain ⟨km,known⟩ := inv.matched.active _ kernelId recorded
  rcases @closeTab_cases mac token outside page key with ⟨-,stuck⟩ | ⟨tabs,closed,kernels,done,same⟩
  · simp only [handleTabClose,found,recorded,Option.map_some] at stuck
    split_ifs at stuck
  · rw [same]
    apply orphaned
    · exact known
    intro path there opened
    obtain rfl := inv.matched.distinct path key kernelId there recorded
    obtain ⟨tab,still,-⟩ := opened
    have gone : tabs.get? path = none := closed_gone done
    exact absurd (gone.symm.trans still) (by simp)

end

/-! ## Runs -/

theorem inv_start : Inv start where
  serving := ⟨rfl,rfl,by simp [start,setUp]⟩
  matched := ⟨by simp [start,JsObject.empty,JsObject.get?],by simp [start,JsObject.empty,JsObject.get?],
    by simp [start,setUp]⟩
  recorded := by simp [start,JsObject.empty,JsObject.get?]
  named := by
    unfold Named
    decide
  shown := by decide

section
variable (mac : List UInt8 → List UInt8 → List UInt8) (token : String)

theorem step_keeps (page : Page) (e : Action × KernelRequests.Outside) (inv : Inv page) (careful : Careful page e) :
    Inv (step mac token page e).1 := by
  obtain ⟨action,outside⟩ := e
  unfold step
  by_cases gone : page.crashed = true
  · rw [if_pos gone]
    exact inv
  · rw [if_neg gone]
    have careful := careful.resolve_left gone
    cases action with
    | openNotebook name path kernelspec =>
      dsimp only [act]
      cases done : handleTabActivate page.fileTabsState name path "notebook" kernelspec with
      | none => exact ⟨inv.serving,inv.matched,inv.recorded,inv.named,inv.shown⟩
      | some tabs => exact openNotebook_keeps inv done
    | changeKernel path value =>
      dsimp only [act]
      cases found : visible page path with
      | none => exact inv
      | some pane => exact changeKernel_keeps inv found (careful (by simp [found])) value
    | restartKernel path | restartAndExecuteAllCells path =>
      dsimp only [act]
      cases found : visible page path with
      | none => exact inv
      | some pane => exact restartKernel_keeps inv found careful
    | close key =>
      dsimp only [act]
      cases found : page.fileTabsState.get? key with
      | none => exact inv
      | some tab =>
        dsimp only
        split_ifs with closable
        · exact closeTab_keeps inv found (fun notebook => careful tab found notebook closable)
        · exact inv
    | kill key =>
      obtain ⟨kernels,same⟩ := @killKernel_eq mac token outside page key
      dsimp only [act]
      rw [same]
      exact inv.forget kernels

theorem step_breaks (page : Page) (e : Action × KernelRequests.Outside) (inv : Inv page)
    (noOrphans : NoOrphans (step mac token page e).1) : Careful page e := by
  obtain ⟨action,outside⟩ := e
  unfold step at noOrphans
  by_cases gone : page.crashed = true
  · exact .inl gone
  · rw [if_neg gone] at noOrphans
    refine .inr ?_
    cases action with
    | openNotebook name path kernelspec => trivial
    | changeKernel path value =>
      intro shown
      obtain ⟨pane,found⟩ := Option.ne_none_iff_exists'.mp shown
      obtain ⟨rfl,-⟩ := inv.visible found
      refine Option.eq_none_iff_forall_ne_some.mpr ?_
      intro kernelId recorded
      simp only [act,found] at noOrphans
      exact changeKernel_orphans inv recorded value noOrphans
    | restartKernel path | restartAndExecuteAllCells path =>
      rintro ⟨pane,found,session,begins⟩
      obtain ⟨rfl,-⟩ := inv.visible found
      refine Option.eq_none_iff_forall_ne_some.mpr ?_
      intro kernelId recorded
      simp only [act,found] at noOrphans
      exact restartKernel_orphans inv recorded session begins noOrphans
    | close key =>
      intro tab found notebook closable
      refine Option.eq_none_iff_forall_ne_some.mpr ?_
      intro kernelId recorded
      simp only [act,found,if_pos closable] at noOrphans
      exact closeTab_orphans inv recorded found noOrphans
    | kill key => trivial

/-- No kernel is ever without an open notebook that it is current for if and only if no
    action gives up a kernel: none is changed or restarted where one is recorded, and no
    notebook with a kernel is closed. -/
theorem noOrphans_iff (events : List (Action × KernelRequests.Outside)) :
    Always (step mac token) NoOrphans start events ↔ Meets (step mac token) Careful start events :=
  always_iff_meets (fun _ inv => inv.noOrphans) (step_keeps mac token) (step_breaks mac token) inv_start events

end

/-! ## A kernel that goes on -/

def openedTabs : JsObject IfileTab :=
  (defaultFileTabState.mapValues (fun _ tab => { tab with active := false, loadRequired := false })).add "a.ipynb"
    (newTab "a.ipynb" "a.ipynb" "notebook" "python3")

/-- The notebook is opened on the page, and its session is started there. -/
theorem opened_begun :
    (step (fun _ _ => []) "token" start (.openNotebook "a.ipynb" "a.ipynb" "python3",⟨quietStart,quiet⟩)).1 =
      startASession (fun _ _ => []) "token" ⟨quietStart,quiet⟩ (drawn start openedTabs) "a.ipynb" "a.ipynb" "notebook"
        "python3" := by
  have activated : handleTabActivate start.fileTabsState "a.ipynb" "a.ipynb" "notebook" "python3" = some openedTabs := by
    rw [handleTabActivate,if_neg (by decide),if_neg (by decide),if_neg (by decide)]
    rfl
  have panes : (drawn start openedTabs).panes =
      [⟨⟨"launcher","Launcher","Launcher",false,some "txt",false,"none"⟩,.launcher,"none",none⟩,
        ⟨newTab "a.ipynb" "a.ipynb" "notebook" "python3",.notebookEditor,"python3",none⟩] := by decide
  simp only [step,act,activated,render]
  rw [if_neg (by decide),panes,List.foldl_cons,List.foldl_cons,List.foldl_nil,effect,effectBy,if_pos (by decide),effect,effectBy,
    if_neg (by decide)]
  rfl

/-- A notebook is opened with a kernel, and its tab closed: the kernel goes on. -/
theorem closed_orphaned : ¬ NoOrphans (run (step (fun _ _ => []) "token") start
    [(.openNotebook "a.ipynb" "a.ipynb" "python3",⟨quietStart,quiet⟩),(.close "a.ipynb",⟨quietStart,quiet⟩)]).1 := by
  intro noOrphans
  simp only [run] at noOrphans
  have inv := step_keeps (fun _ _ => []) "token" start
    (.openNotebook "a.ipynb" "a.ipynb" "python3",⟨quietStart,quiet⟩) inv_start (.inr trivial)
  have careful := step_breaks _ _ _ (.close "a.ipynb",⟨quietStart,quiet⟩) inv noOrphans
  rw [opened_begun] at careful
  obtain ⟨same,-,started⟩ := @startASession_cases (fun _ _ => []) "token" ⟨quietStart,quiet⟩ (drawn start openedTabs)
    inv_start.serving "a.ipynb" "a.ipynb" "notebook" "python3"
  have opened : (startASession (fun _ _ => []) "token" ⟨quietStart,quiet⟩ (drawn start openedTabs) "a.ipynb" "a.ipynb"
      "notebook" "python3").fileTabsState.get? "a.ipynb" = some (newTab "a.ipynb" "a.ipynb" "notebook" "python3") := by
    rw [same.tabs]
    decide
  have unrecorded := careful.resolve_left (by rw [startASession_crashed]; decide) _ opened (by decide) (by decide)
  cases started with
  | unstarted idle => exact idle ⟨by decide,by decide +kernel⟩
  | launched km begins map kernels =>
    rw [map,get?_assign,if_pos rfl] at unrecorded
    cases unrecorded

end Zasper.NotebookKernels
