import Zasper.KernelManagers
import Zasper.Runs

/-!
# The supervisor of the kernels

The server as a machine: sessions are created and deleted, kernels are stopped or
deleted, browsers connect to kernels and close their connections, in any order. What
each of the requests can do is said once (`Change`).
-/
namespace Zasper.KernelSupervisor
open Zasper.Maps Zasper.KernelMessages Zasper.KernelSession Zasper.Kernels Zasper.KernelManagers Zasper.Runs
set_option linter.unusedSimpArgs false

/-! ## State -/

/-- A text that is one segment of a path. -/
def Plain (text : String) : Prop := text ≠ "" ∧ '/' ∉ text.toList ∧ '.' ∉ text.toList

instance (text : String) : Decidable (Plain text) := inferInstanceAs (Decidable (_ ∧ _ ∧ _))

/-- A source of ids: none is drawn again. -/
structure Uuid extends Fresh String where
  plain : ∀ used, Plain (next used)

/-- What the creation of a session meets outside. -/
structure SessionStart extends Start where
  sessionId : Uuid
  kernelId : Uuid
  now : String

structure Supervisor where
  registry : Registry
  currentlyUsedPorts : List Nat
  /-- The ids that were drawn. -/
  issued : List String
  /-- The kernels and the contexts of the connections that were opened. -/
  opened : List (String × Nat)
  /-- The contexts of the connections that the browser closed. -/
  closed : List Nat
  /-- Whether the server has ended itself. -/
  exited : Bool

def setUp : Supervisor := ⟨⟨.empty,.empty,.empty,[],[],[]⟩,[],[],[],[],false⟩

/-! ## Requests -/

inductive Reply where
  | created (session : SessionModel)
  | failed
  /-- The handler panicked, or gave the answer of a handler for kernels. -/
  | panicked
  | kernel (answer : Answer)
  | done
  | exited

inductive StartResult where
  | panicked
  | failed
  | started (kernelId : String)

def startKernelManager (outside : SessionStart) (s : Supervisor) (kernelName : String) : Supervisor × StartResult :=
  let kernelId := outside.kernelId.next s.issued
  let km := createKernelManager outside.toStart kernelName kernelId
  let (used,started) := startKernel outside.toStart s.currentlyUsedPorts s.registry.processes km
  let s := { s with currentlyUsedPorts := used, issued := kernelId :: s.issued }
  match started with
  | .panicked => (s,.panicked)
  | .failed => (s,.failed)
  | .running km =>
    ({ s with registry := { s.registry with
        kernels := s.registry.kernels.insert kernelId km
        processes := km.pid :: s.registry.processes } },.started kernelId)

/-- A session whose id is known is handed back, without a kernel of its own. -/
def createSession (outside : SessionStart) (s : Supervisor) (req : SessionModel) : Supervisor × Reply :=
  let sessionId := outside.sessionId.next s.issued
  let s := { s with issued := sessionId :: s.issued }
  match s.registry.sessions.get? req.id with
  | some session => (s,.created session)
  | none =>
    match startKernelManager outside s req.kernel.name with
    | (s,.panicked) => (s,.panicked)
    | (s,.failed) => (s,.failed)
    | (s,.started kernelId) =>
      let session : SessionModel :=
        { id := sessionId
          name := req.name
          sessionType := req.sessionType
          path := req.path
          kernel := ⟨kernelId,req.kernel.name,outside.now,"",0⟩ }
      ({ s with registry := { s.registry with sessions := s.registry.sessions.insert sessionId session } }
      ,.created session)

/-- Kills a process; where it cannot be killed, the server ends itself. -/
def shutdownKernel (kills : Nat → Bool) (pid : Nat) (registry : Registry) : Option Registry :=
  if pid ≠ 0 ∧ kills pid = true then some { registry with processes := registry.processes.erase pid } else none

/-- The kernel stays among the active kernels. -/
def stopKernelManager (kills : Nat → Bool) (kernelId : String) (registry : Registry) : Option Registry :=
  let km := (registry.kernels.get? kernelId).getD .zero
  shutdownKernel kills km.pid registry

def deleteSession (kills : Nat → Bool) (s : Supervisor) (req : SessionModel) : Supervisor :=
  match s.registry.sessions.get? req.id with
  | none => s
  | some session =>
    match stopKernelManager kills session.kernel.id s.registry with
    | none => { s with exited := true }
    | some registry => { s with registry := { registry with sessions := registry.sessions.erase req.id } }

/-! ## The machine -/

inductive Event where
  | createSession (req : SessionModel) (outside : SessionStart)
  | deleteSession (req : SessionModel) (kills : Nat → Bool)
  /-- `KillKernelById`, as the route for stopping a kernel calls it. -/
  | stop (kernelId : String) (outside : Outside)
  | deleteKernel (kernelID : String) (outside : Outside)
  | connect (kernelId sessionId : String) (outside : Outside)
  /-- The browser closes a connection; the server keeps its context. -/
  | close (context : Nat)

section
variable (mac : List UInt8 → List UInt8 → List UInt8)

def handle (s : Supervisor) : Event → Supervisor × Reply
  | .createSession req outside => createSession outside s req
  | .deleteSession req kills =>
    let next := deleteSession kills s req
    (next,if next.exited then .exited else .done)
  | .stop kernelId outside => ({ s with registry := killKernelById outside kernelId s.registry },.done)
  | .deleteKernel kernelID outside =>
    let (registry,answer) := kernelDeleteAPIHandler outside s.registry kernelID
    ({ s with registry := registry },.kernel answer)
  | .connect kernelId sessionId outside =>
    let context := s.opened.length
    let (registry,answer) := handleWebSocket mac { outside with context := context } s.registry kernelId sessionId
    ({ s with
        registry := registry
        opened := if answer = .connected then s.opened ++ [(kernelId,context)] else s.opened },.kernel answer)
  | .close context => ({ s with closed := context :: s.closed },.done)

def step (s : Supervisor) (e : Event) : Supervisor × Reply := if s.exited then (s,.exited) else handle mac s e

end

/-! ## What a step can do -/

section
variable (s : Supervisor) (req : SessionModel) (outside : SessionStart)

def newSessionId : String := outside.sessionId.next s.issued
def newKernelId : String := outside.kernelId.next (newSessionId s outside :: s.issued)

/-- The process that a start brings up, if it brings one up. -/
def newProcess : Option Nat :=
  ((launchCommand outside.toStart (newKernelId s outside)).bind outside.starts).map
    (fun process => process.next (0 :: s.registry.processes))

def newKernel (pid : Nat) : KernelManager :=
  let km := createKernelManager outside.toStart req.kernel.name (newKernelId s outside)
  { km with
    connectionInfo := (preLaunchPorts s.currentlyUsedPorts outside.searches km.connectionInfo).2
    pid := pid }

def newSession : SessionModel :=
  { id := newSessionId s outside
    name := req.name
    sessionType := req.sessionType
    path := req.path
    kernel := ⟨newKernelId s outside,req.kernel.name,outside.now,"",0⟩ }

/-- The state after a start that has drawn its ids and claimed its ports. -/
def claimed : Supervisor :=
  { s with
    currentlyUsedPorts := (findAll s.currentlyUsedPorts outside.searches.list).1
    issued := newKernelId s outside :: newSessionId s outside :: s.issued }

def launched (pid : Nat) : Supervisor :=
  { claimed s outside with
    registry :=
      { s.registry with
        sessions := s.registry.sessions.insert (newSessionId s outside) (newSession s req outside)
        kernels := s.registry.kernels.insert (newKernelId s outside) (newKernel s req outside pid)
        processes := pid :: s.registry.processes } }

theorem newSessionId_fresh : newSessionId s outside ∉ s.issued := outside.sessionId.fresh _

theorem newKernelId_fresh : newKernelId s outside ∉ newSessionId s outside :: s.issued := outside.kernelId.fresh _

/-- The id of a new kernel is not that of a kernel of the server. -/
theorem newKernelId_unknown (issued : ∀ e ∈ s.registry.kernels.entries, e.1 ∈ s.issued) :
    s.registry.kernels.get? (newKernelId s outside) = none := by
  refine Dict.get?_eq_none.mpr (fun km member => newKernelId_fresh s outside ?_)
  exact List.mem_cons_of_mem _ (issued _ member)

/-- A new process has a number of its own. -/
theorem newProcess_fresh {s : Supervisor} {outside : SessionStart} {pid : Nat}
    (process : newProcess s outside = some pid) : pid ≠ 0 ∧ pid ∉ s.registry.processes := by
  obtain ⟨fresh,-,rfl⟩ := Option.map_eq_some_iff.mp process
  have new := fresh.fresh (0 :: s.registry.processes)
  exact ⟨fun zero => new (by simp [zero]),fun old => new (List.mem_cons_of_mem _ old)⟩

end

/-- What a request does to the state. -/
inductive Change (mac : List UInt8 → List UInt8 → List UInt8) (s : Supervisor) : Event → Supervisor → Prop
  | gone {e : Event} (exited : s.exited = true) : Change mac s e s
  | existing {req : SessionModel} {outside : SessionStart} {session : SessionModel} (live : s.exited = false)
      (known : s.registry.sessions.get? req.id = some session) :
      Change mac s (.createSession req outside) { s with issued := newSessionId s outside :: s.issued }
  | unstarted {req : SessionModel} {outside : SessionStart} (live : s.exited = false)
      (unknown : s.registry.sessions.get? req.id = none) (none : newProcess s outside = none) :
      Change mac s (.createSession req outside) (claimed s outside)
  | launched {req : SessionModel} {outside : SessionStart} {pid : Nat} (live : s.exited = false)
      (unknown : s.registry.sessions.get? req.id = none) (process : newProcess s outside = some pid) :
      Change mac s (.createSession req outside) (launched s req outside pid)
  | absent {req : SessionModel} {kills : Nat → Bool} (live : s.exited = false)
      (unknown : s.registry.sessions.get? req.id = none) : Change mac s (.deleteSession req kills) s
  | exits {req : SessionModel} {kills : Nat → Bool} {session : SessionModel} (live : s.exited = false)
      (known : s.registry.sessions.get? req.id = some session)
      (fails : stopKernelManager kills session.kernel.id s.registry = none) :
      Change mac s (.deleteSession req kills) { s with exited := true }
  | ended {req : SessionModel} {kills : Nat → Bool} {session : SessionModel} {registry : Registry}
      (live : s.exited = false) (known : s.registry.sessions.get? req.id = some session)
      (stopped : stopKernelManager kills session.kernel.id s.registry = some registry) :
      Change mac s (.deleteSession req kills)
        { s with registry := { registry with sessions := registry.sessions.erase req.id } }
  | stopped {kernelId : String} {outside : Outside} (live : s.exited = false) :
      Change mac s (.stop kernelId outside) { s with registry := killKernelById outside kernelId s.registry }
  | panicked {kernelID : String} {outside : Outside} (live : s.exited = false)
      (unknown : s.registry.connections.get? kernelID = none) : Change mac s (.deleteKernel kernelID outside) s
  | deleted {kernelID : String} {outside : Outside} {kwsConn : KernelWebSocketConnection} (live : s.exited = false)
      (known : s.registry.connections.get? kernelID = some kwsConn) :
      Change mac s (.deleteKernel kernelID outside)
        { s with registry := (kernelDeleteAPIHandler outside s.registry kernelID).1 }
  | refused {kernelId sessionId : String} {outside : Outside} (live : s.exited = false) :
      Change mac s (.connect kernelId sessionId outside) s
  | connected {kernelId sessionId : String} {outside : Outside} {km : KernelManager} (live : s.exited = false)
      (known : s.registry.kernels.get? kernelId = some km) :
      Change mac s (.connect kernelId sessionId outside)
        { s with
          registry :=
            { s.registry with
              connections := s.registry.connections.insert kernelId
                ⟨kernelId,km,createStream km,km.key,s.opened.length⟩
              polling := s.opened.length :: s.registry.polling
              sent := s.registry.sent ++ [nudge mac { outside with context := s.opened.length } km] }
          opened := s.opened ++ [(kernelId,s.opened.length)] }
  | closed {context : Nat} (live : s.exited = false) :
      Change mac s (.close context) { s with closed := context :: s.closed }

section
variable {mac : List UInt8 → List UInt8 → List UInt8}

theorem createSession_existing {s : Supervisor} {req : SessionModel} {session : SessionModel} (outside : SessionStart)
    (known : s.registry.sessions.get? req.id = some session) :
    createSession outside s req = ({ s with issued := newSessionId s outside :: s.issued },.created session) := by
  simp [createSession,known,newSessionId]

/-- A session that is not known is created with a kernel, if one can be started. -/
theorem createSession_new {s : Supervisor} {req : SessionModel} (outside : SessionStart)
    (unknown : s.registry.sessions.get? req.id = none) :
    (newProcess s outside = none ∧ (createSession outside s req).1 = claimed s outside ∧
        ∀ session, (createSession outside s req).2 ≠ .created session) ∨
      ∃ pid, newProcess s outside = some pid ∧
        createSession outside s req = (launched s req outside pid,.created (newSession s req outside)) := by
  simp only [createSession,unknown,startKernelManager,startKernel,newProcess]
  cases command : launchCommand outside.toStart (newKernelId s outside) with
  | none =>
    left
    have here : launchCommand outside.toStart (createKernelManager outside.toStart req.kernel.name
        (outside.kernelId.next (outside.sessionId.next s.issued :: s.issued))).kernelId = none := command
    simp only [here]
    exact ⟨rfl,rfl,fun session => nofun⟩
  | some kernelCmd =>
    have here : launchCommand outside.toStart (createKernelManager outside.toStart req.kernel.name
        (outside.kernelId.next (outside.sessionId.next s.issued :: s.issued))).kernelId = some kernelCmd := command
    simp only [here,Option.bind_some]
    cases started : outside.starts kernelCmd with
    | none => exact .inl ⟨rfl,rfl,fun session => nofun⟩
    | some process => exact .inr ⟨_,rfl,rfl⟩

theorem handleWebSocket_cases (outside : Outside) (registry : Registry) (kernelId sessionId : String) :
    (∃ answer, handleWebSocket mac outside registry kernelId sessionId = (registry,answer) ∧ answer ≠ .connected) ∨
      ∃ km, registry.kernels.get? kernelId = some km ∧
        handleWebSocket mac outside registry kernelId sessionId =
          ({ registry with
              connections := registry.connections.insert kernelId ⟨kernelId,km,createStream km,km.key,outside.context⟩
              polling := outside.context :: registry.polling
              sent := registry.sent ++ [nudge mac outside km] },.connected) := by
  unfold handleWebSocket
  cases session : registry.sessions.get? sessionId with
  | none => exact .inl ⟨_,rfl,by decide⟩
  | some _ =>
    cases kernel : registry.kernels.get? kernelId with
    | none => exact .inl ⟨_,rfl,by decide⟩
    | some km =>
      by_cases upgrades : outside.upgrades = true
      · exact .inr ⟨km,rfl,by simp [upgrades]⟩
      · exact .inl ⟨.refused,by simp [upgrades],by decide⟩

theorem step_change (s : Supervisor) (e : Event) : Change mac s e (step mac s e).1 := by
  by_cases exited : s.exited = true
  · rw [step,if_pos exited]
    exact .gone exited
  · have live : s.exited = false := by simpa using exited
    rw [step,if_neg exited]
    cases e with
    | createSession req outside =>
      simp only [handle]
      cases known : s.registry.sessions.get? req.id with
      | some session =>
        rw [createSession_existing outside known]
        exact .existing live known
      | none =>
        rcases createSession_new outside known with ⟨unstarted,same,-⟩ | ⟨pid,process,same⟩
        · rw [same]
          exact .unstarted live known unstarted
        · rw [same]
          exact .launched live known process
    | deleteSession req kills =>
      simp only [handle,deleteSession]
      cases known : s.registry.sessions.get? req.id with
      | none => exact .absent live known
      | some session =>
        cases stopped : stopKernelManager kills session.kernel.id s.registry with
        | none => simpa only [stopped] using .exits live known stopped
        | some registry => simpa only [stopped] using .ended live known stopped
    | stop kernelId outside => exact .stopped live
    | deleteKernel kernelID outside =>
      simp only [handle]
      cases known : s.registry.connections.get? kernelID with
      | none =>
        rw [kernelDelete_unknown known]
        exact .panicked live known
      | some kwsConn => exact .deleted live known
    | connect kernelId sessionId outside =>
      simp only [handle]
      rcases @handleWebSocket_cases mac { outside with context := s.opened.length } s.registry kernelId sessionId with
        ⟨answer,same,other⟩ | ⟨km,known,same⟩
      · rw [same]
        simp only [other,↓reduceIte]
        exact .refused live
      · rw [same]
        simp only [↓reduceIte]
        exact .connected live known
    | close context => exact .closed live

end

/-! ## A quiet system -/

/-- A text longer than all that are in use. -/
def longer (used : List String) : String :=
  String.ofList (List.replicate ((used.map (fun text => text.toList.length)).foldr max 0 + 1) 'k')

theorem length_le_foldr {used : List String} {text : String} (member : text ∈ used) :
    text.toList.length ≤ (used.map (fun text => text.toList.length)).foldr max 0 := by
  induction used with
  | nil => simp at member
  | cons first rest ih =>
    rcases List.mem_cons.mp member with rfl | later
    · simp
    · have := ih later
      simp only [List.map_cons,List.foldr_cons]
      omega

def longerId : Uuid where
  next := longer
  fresh used member := by
    have := length_le_foldr member
    simp [longer] at this
  plain used := by
    refine ⟨?_,?_,?_⟩
    · intro empty
      have := congrArg (fun text : String => text.toList.length) empty
      simp [longer] at this
    · simp [longer]
    · simp [longer]

def above : Fresh Nat where
  next used := used.foldr max 0 + 1
  fresh used member := by
    have bound : ∀ used : List Nat, ∀ n ∈ used, n ≤ used.foldr max 0 := by
      intro used
      induction used with
      | nil => simp
      | cons first rest ih =>
        refine List.forall_mem_cons.mpr ⟨by simp,fun n later => ?_⟩
        have := ih n later
        simp only [List.foldr_cons]
        omega
    have := bound used _ member
    omega

/-- A search that finds every port unused that was not claimed. -/
def quietSearch : Search := fun attempt => ⟨Fin.ofNat 1000 attempt,true⟩

/-- A start at which everything succeeds. -/
def quietStart : SessionStart where
  searches := ⟨quietSearch,quietSearch,quietSearch,quietSearch,quietSearch⟩
  newIDBytes := "key"
  tempDir := "/tmp"
  argv := ["python","-m","ipykernel"]
  creates := true
  python := true
  starts _ := some above
  sessionId := longerId
  kernelId := longerId
  now := "2025-01-01"

def quiet : Outside := ⟨true,0,"1","2025-01-01T00:00:00Z","user",fun _ => true⟩

def request : SessionModel := ⟨"","a.ipynb","a.ipynb","notebook",⟨"","python3","","",0⟩⟩

end Zasper.KernelSupervisor
