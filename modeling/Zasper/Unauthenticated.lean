import Zasper.Runs
import Zasper.Server

/-!
# Requests without a token

What a client without a token can do to a server in protected mode. The API is
closed to it. The sockets of terminals and kernels, the deletion of a kernel and the
resources of kernels are not: `secure_of_harmless` says which requests leave the
state as it is and disclose no file of the project.
-/
namespace Zasper.Unauthenticated
open Zasper.Maps Zasper.JsonValues Zasper.Paths Zasper.Programs Zasper.OperatingSystem Zasper.Http Zasper.Auth
open Zasper.KernelResources Zasper.Runs Zasper.Server
set_option linter.unusedSimpArgs false

section
variable {Files ApiAnswer : Type} {system : System Files ApiAnswer}

/-- The request carries no token, and does not present the access token to the login. -/
def Anonymous (system : System Files ApiAnswer) (r : Request) : Prop :=
  ¬ CarriesToken system.parse r ∧
    (r.path = "/auth/login" → ¬ PresentsAccessToken system.serverAccessToken r.body)

/-- The path lies in the project. -/
def InProject (system : System Files ApiAnswer) (path : String) : Prop :=
  Below (absPath system.cwd system.homeDir) (absPath system.cwd path)

instance (system : System Files ApiAnswer) (path : String) : Decidable (InProject system path) :=
  inferInstanceAs (Decidable (Below _ _))

/-- The response carries a file of the project, or may carry one: what the API
    answers is not looked at. -/
def Discloses (system : System Files ApiAnswer) : Response ApiAnswer → Prop
  | .resource (.file path _ _) => InProject system path
  | .api _ => True
  | _ => False

/-- The state is the same after the requests, and no response discloses a file. -/
def Secure (system : System Files ApiAnswer) (state : State Files) (events : List (Request × Outside)) : Prop :=
  (run (serve system) state events).1 = state ∧ ∀ r ∈ (run (serve system) state events).2, ¬ Discloses system r

/-- The file that is looked for when a resource of a kernel is asked for. -/
def resourceFile (system : System Files ApiAnswer) (files : Files) (vars : Vars) : Except Stop String :=
  ((getResourceFile system.jupyterPath (valueOf vars "kernel") (valueOf vars "resource")).run
    system.fileSystem.answer files).2

/-- A request that the missing authentication does not matter to, in the state that it
    meets. -/
def Harmless (system : System Files ApiAnswer) (state : State Files) (e : Request × Outside) : Prop :=
  match destination e.1 with
  | .handler .serveKernelResource vars =>
    ∀ path, resourceFile system state.files vars = .ok path → InProject system path →
      (system.fileSystem.answer state.files (.readFile path)).2.isOk = false ∨ ext (valueOf vars "resource") = ""
  | .handler .handleWebSocket vars =>
    state.registry.sessions.get? (e.1.queryValue "session_id") = none ∨
      state.registry.kernels.get? (valueOf vars "kernelId") = none ∨ e.2.kernel.upgrades = false
  | .handler .kernelDelete vars => state.registry.connections.get? (valueOf vars "kernel_id") = none
  | .handler .handleTerminalWebSocket _ => e.2.terminal.upgrades = false ∨ e.2.terminal.started.isOk = false
  | _ => True

/-! ## One request -/

theorem handleApi_closed {r : Request} {vars : Vars} {state : State Files} (guarded : system.isProtected = true)
    (anonymous : Anonymous system r) (handler : ApiHandler) :
    ∃ text, handleApi system handler vars r state = (state,.message 401 text) := by
  obtain ⟨text,rejected⟩ := rejects anonymous.1
  exact ⟨text,by simp [handleApi,guarded,rejected]⟩

/-- Looking for a resource and reading it changes no file. -/
theorem handleResource_state (vars : Vars) (state : State Files) : (handleResource system vars state).1 = state := by
  have same := Program.run_world system.fileSystem.kept
    (reads_serveKernelResource system.jupyterPath (valueOf vars "kernel") (valueOf vars "resource")) state.files
  simp only [handleResource,same]

/-- A response with a file carries the file that was looked for. -/
theorem handleResource_discloses {vars : Vars} {state : State Files}
    (discloses : Discloses system (handleResource system vars state).2) :
    ∃ path, resourceFile system state.files vars = .ok path ∧ InProject system path ∧
      (system.fileSystem.answer state.files (.readFile path)).2.isOk = true ∧ ext (valueOf vars "resource") ≠ "" := by
  unfold handleResource at discloses
  dsimp only at discloses
  split at discloses
  · rename_i answer served
    cases answer with
    | notFound => exact discloses.elim
    | file path contentType data =>
      obtain ⟨found,read,extension⟩ := served_file system.fileSystem served
      exact ⟨path,found,discloses,by rw [read]; rfl,extension⟩
  · exact discloses.elim

theorem serve_harmless {state : State Files} {e : Request × Outside} (guarded : system.isProtected = true)
    (anonymous : Anonymous system e.1) (harmless : Harmless system state e) :
    (serve system state e).1 = state ∧ ¬ Discloses system (serve system state e).2 := by
  unfold serve
  unfold Harmless at harmless
  cases goes : destination e.1 with
  | preflight => exact ⟨rfl,id⟩
  | redirect path => exact ⟨rfl,id⟩
  | notFound => exact ⟨rfl,id⟩
  | handler handler vars =>
    rw [goes] at harmless
    cases handler with
    | api handler =>
      obtain ⟨text,closed⟩ : ∃ text, handleApi system handler vars e.1 state = (state,.message 401 text) :=
        handleApi_closed guarded anonymous handler
      simp only [handle,closed]
      exact ⟨trivial,id⟩
    | login => exact ⟨rfl,id⟩
    | serveKernelResource =>
      refine ⟨handleResource_state vars state,?_⟩
      intro discloses
      obtain ⟨path,found,inside,read,extension⟩ := handleResource_discloses discloses
      rcases harmless path found inside with unreadable | noExtension
      · rw [read] at unreadable
        cases unreadable
      · exact extension noExtension
    | handleWebSocket =>
      refine ⟨?_,id⟩
      simp only [handle,Kernels.handleWebSocket_refused harmless]
    | kernelDelete =>
      refine ⟨?_,id⟩
      simp only [handle,Kernels.kernelDelete_unknown harmless]
    | handleTerminalWebSocket =>
      refine ⟨?_,id⟩
      simp only [handle,Terminals.handleTerminal_refused harmless]
    | healthCheck => exact ⟨rfl,id⟩
    | config => exact ⟨rfl,id⟩
    | spa => exact ⟨rfl,id⟩

/-! ## Every run -/

theorem secure_of_harmless (system : System Files ApiAnswer) (guarded : system.isProtected = true) (state : State Files)
    (events : List (Request × Outside)) (anonymous : ∀ e ∈ events, Anonymous system e.1)
    (harmless : Meets (serve system) (Harmless system) state events) : Secure system state events := by
  refine @run_keeps _ _ _ _ _ (fun s => s = state) (fun r => ¬ Discloses system r) ?_ _ rfl _ (harmless.and anonymous)
  rintro s e rfl ⟨here,good⟩
  exact serve_harmless guarded here good

end

/-! ## A bare server -/

def notExist : OsError := ⟨true,"file does not exist"⟩

/-- A system without files. -/
def emptyFiles : FileSystem Unit where
  answer _
    | .getwd => ((),.ok "/srv/project")
    | .lstat _ | .stat _ => ((),.error notExist)
    | .readFile _ => ((),.error notExist)
    | .readDir _ => ((),([],some notExist))
    | .writeFile _ _ | .openFile _ | .openDir _ | .mkdirAll _ | .rename _ _ | .remove _ => ((),some notExist)
  kept _ _ _ := rfl

/-- A server in protected mode that accepts no token. -/
def bare : System Unit Unit where
  isProtected := true
  homeDir := "/srv/project"
  cwd := "/srv/project"
  osName := "linux"
  version := "1.0"
  jupyterPath := []
  serverAccessToken := "secret"
  parse _ := none
  mac _ _ := []
  fileSystem := emptyFiles
  embedded _ := none
  behind _ _ _ state := (state,())

def started : State Unit := ⟨(),⟨.empty,.empty,.empty,[],[],[]⟩,⟨.empty,[]⟩⟩

/-- A handshake is accepted and a shell starts. -/
def accepting : Outside where
  kernel := ⟨true,1,"1","2024-01-01T00:00:00Z","user",fun _ => true⟩
  terminal := ⟨true,"1",.ok 42⟩
  sign _ := none

def healthRequest : Request := ⟨"GET","/api/health",[],[],[]⟩
def terminalRequest : Request := ⟨"GET","/ws/terminals/1",[],[("Connection","Upgrade"),("Upgrade","websocket")],[]⟩

theorem anonymous_bare {r : Request} (noLogin : r.path ≠ "/auth/login") : Anonymous bare r := by
  refine ⟨?_,fun login => absurd login noLogin⟩
  rintro ⟨token,parsed,_⟩
  cases parsed

theorem health_secure : Secure bare started [(healthRequest,accepting)] := by
  have goes : destination healthRequest = .handler .healthCheck [] := by decide
  refine secure_of_harmless bare rfl started _ (by simpa using anonymous_bare (by decide)) ⟨?_,trivial⟩
  simp only [Harmless,goes]

theorem terminal_insecure : Anonymous bare terminalRequest ∧ ¬ Secure bare started [(terminalRequest,accepting)] := by
  refine ⟨anonymous_bare (by decide),?_⟩
  rintro ⟨same,-⟩
  simp only [run] at same
  have goes : destination terminalRequest = .handler .handleTerminalWebSocket [("terminalId","1")] := by decide
  have running : ((serve bare started (terminalRequest,accepting)).1).terminals.processes = [42] := by
    simp only [serve,goes]
    rfl
  rw [same] at running
  cases running

end Zasper.Unauthenticated
