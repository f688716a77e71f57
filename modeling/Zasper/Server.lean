import Zasper.Auth
import Zasper.KernelResources
import Zasper.Kernels
import Zasper.Terminals

/-!
# The server

The routes of the server in the order in which the router tries them, and what a
request does to the server's state. The routes below `/api` that are registered on
the API's subrouter are behind the authentication when the server is in protected
mode; the other routes never are. What the handlers behind the authentication do is
a parameter, and so is what the build embedded for the browser.
-/
namespace Zasper.Server
open Zasper.JsonValues Zasper.Strings Zasper.Paths Zasper.Programs Zasper.OperatingSystem Zasper.Http Zasper.Auth
open Zasper.KernelResources Zasper.KernelSession
set_option linter.unusedSimpArgs false

/-! ## Routes -/

inductive ApiHandler where
  | info | configModify
  | contentCreate | content | contentUpdate | contentRename | contentDelete | watch | uploadFile
  | fileSuggestions
  | commitGraph | uncommittedFiles | commitAndMaybePush | branch
  | kernelspecs | singleKernelspec
  | kernelList | kernelRead | kernelInterrupt | kernelKill
  | sessions | sessionCreate
deriving DecidableEq

inductive Handler where
  | api (handler : ApiHandler)
  | login
  | serveKernelResource
  | handleWebSocket
  | kernelDelete
  | handleTerminalWebSocket
  | healthCheck
  | config
  | spa
deriving DecidableEq

def route (start path : String) (methods : List String) (handler : Handler) : Route Handler :=
  ⟨.template (start ++ path),methods,handler⟩

def apiRouter : List (Route Handler) :=
  [ route "/api" "/info" ["GET"] (.api .info)
  , route "/api" "/config/modify" ["POST"] (.api .configModify)
  , route "/api" "/contents/create" ["POST"] (.api .contentCreate)
  , route "/api" "/contents" ["POST"] (.api .content)
  , route "/api" "/contents" ["PUT"] (.api .contentUpdate)
  , route "/api" "/contents/rename" ["POST"] (.api .contentRename)
  , route "/api" "/contents" ["DELETE"] (.api .contentDelete)
  , route "/api" "/contents/watch" ["GET"] (.api .watch)
  , route "/api" "/contents/upload" ["POST"] (.api .uploadFile)
  , route "/api" "/files" ["GET"] (.api .fileSuggestions)
  , route "/api" "/commit-graph" ["GET"] (.api .commitGraph)
  , route "/api" "/uncommitted-files" ["GET"] (.api .uncommittedFiles)
  , route "/api" "/commit-and-maybe-push" ["POST"] (.api .commitAndMaybePush)
  , route "/api" "/current-branch" ["GET"] (.api .branch)
  , route "/api" "/kernelspecs" ["GET"] (.api .kernelspecs)
  , route "/api" "/kernelspecs/{kernelName}" ["GET"] (.api .singleKernelspec)
  , route "/api" "/kernels" ["GET"] (.api .kernelList)
  , route "/api" "/kernels/{kernelId}" ["GET"] (.api .kernelRead)
  , route "/api" "/kernels/{kernelId}/interrupt" ["POST"] (.api .kernelInterrupt)
  , route "/api" "/kernels/{kernelId}/stop" ["POST"] (.api .kernelKill)
  , route "/api" "/sessions" ["GET"] (.api .sessions)
  , route "/api" "/sessions" ["POST"] (.api .sessionCreate) ]

def authRouter : List (Route Handler) := [route "/auth" "/login" ["POST"] .login]

def staticRouter : List (Route Handler) :=
  [route "/static" "/kernelspecs/{kernel}/{resource}" ["GET"] .serveKernelResource]

def wsRouter : List (Route Handler) :=
  [ route "/ws" "/kernels/{kernelId}/channels" [] .handleWebSocket
  , route "/ws" "/kernels/{kernel_id}" ["DELETE"] .kernelDelete
  , route "/ws" "/terminals/{terminalId}" [] .handleTerminalWebSocket ]

/-- The subrouters come first, whatever was registered on them later. -/
def router : List (Route Handler) :=
  apiRouter ++ authRouter ++ staticRouter ++ wsRouter ++
    [ route "" "/api/health" ["GET"] .healthCheck
    , route "" "/api/config" ["GET"] .config
    , ⟨.prefixOf "/",[],.spa⟩ ]

/-- Where a request goes. -/
inductive Destination where
  | preflight
  | redirect (path : String)
  | notFound
  | handler (handler : Handler) (vars : Vars)
deriving DecidableEq

def destination (r : Request) : Destination :=
  if r.method = "OPTIONS" ∧ r.header "Access-Control-Request-Method" ≠ "" then .preflight
  else if cleanPath r.path ≠ r.path then .redirect (cleanPath r.path)
  else
    match dispatch router r with
    | none => .notFound
    | some (handler,vars) => .handler handler vars

/-! ## State -/

structure State (Files : Type) where
  /-- The files of the project, and the configuration. -/
  files : Files
  registry : Kernels.Registry
  terminals : Terminals.TerminalState
deriving DecidableEq

/-- What a single request meets outside the server. -/
structure Outside where
  kernel : Kernels.Outside
  terminal : Terminals.Outside
  /-- How a token is signed. -/
  sign : List (String × Json) → Option String

/-- What the server is started with. -/
structure System (Files ApiAnswer : Type) where
  isProtected : Bool
  homeDir : String
  cwd : String
  osName : String
  version : String
  jupyterPath : List String
  serverAccessToken : String
  parse : String → Option Claims
  mac : List UInt8 → List UInt8 → List UInt8
  fileSystem : FileSystem Files
  /-- Whether a file is embedded, or the error of opening it. -/
  embedded : String → Option OsError
  behind : ApiHandler → Vars → Request → State Files → State Files × ApiAnswer

/-- What the browser is given where no other route fits. -/
inductive Page where
  | index
  | asset (path : String)
  | failed (text : String)
deriving DecidableEq

def spaHandler (embedded : String → Option OsError) (path : String) : Page :=
  let path := String.ofList ((join ["ui/build",path]).toList.map (fun c => if c = '\\' then '/' else c))
  match embedded path with
  | none => .asset path
  | some e =>
    if e.notExist then
      match embedded (join ["ui/build","index.html"]) with
      | none => .index
      | some e => .failed e.text
    else .failed e.text

inductive Response (ApiAnswer : Type) where
  | preflight
  | redirect (path : String)
  | message (status : Nat) (text : String)
  | aborted
  | api (answer : ApiAnswer)
  | login (answer : Login)
  | resource (answer : Resource)
  | kernel (answer : Kernels.Answer)
  | terminal (answer : Terminals.Answer)
  | alive
  | config (version : String) (isProtected : Bool)
  | page (page : Page)
deriving DecidableEq

section
variable {Files ApiAnswer : Type}

/-- A handler of the API, behind the authentication in protected mode. -/
def handleApi (system : System Files ApiAnswer) (handler : ApiHandler) (vars : Vars) (r : Request) (state : State Files) :
    State Files × Response ApiAnswer :=
  let answered := system.behind handler vars r state
  if system.isProtected then
    match jwtAuthMiddleware system.parse r with
    | .rejected text => (state,.message 401 text)
    | .panicked => (state,.aborted)
    | .passed _ => (answered.1,.api answered.2)
  else (answered.1,.api answered.2)

def handleResource (system : System Files ApiAnswer) (vars : Vars) (state : State Files) :
    State Files × Response ApiAnswer :=
  let ran := (serveKernelResource system.jupyterPath (valueOf vars "kernel") (valueOf vars "resource")).run
    system.fileSystem.answer state.files
  ({ state with files := ran.1 }
  ,match ran.2 with
    | .ok answer => .resource answer
    | .error _ => .aborted)

def handle (system : System Files ApiAnswer) (state : State Files) (outside : Outside) (r : Request) (vars : Vars) :
    Handler → State Files × Response ApiAnswer
  | .api handler => handleApi system handler vars r state
  | .login => (state,.login (loginHandler outside.sign system.serverAccessToken r.body))
  | .serveKernelResource => handleResource system vars state
  | .handleWebSocket =>
    let done := Kernels.handleWebSocket system.mac outside.kernel state.registry (valueOf vars "kernelId")
      (r.queryValue "session_id")
    ({ state with registry := done.1 },.kernel done.2)
  | .kernelDelete =>
    let done := Kernels.kernelDeleteAPIHandler outside.kernel state.registry (valueOf vars "kernel_id")
    ({ state with registry := done.1 },.kernel done.2)
  | .handleTerminalWebSocket =>
    let done := Terminals.handleTerminalWebSocket system.osName outside.terminal state.terminals
    ({ state with terminals := done.1 },.terminal done.2)
  | .healthCheck => (state,.alive)
  | .config => (state,.config system.version system.isProtected)
  | .spa => (state,.page (spaHandler system.embedded r.path))

/-- A request, with what it meets. -/
def serve (system : System Files ApiAnswer) (state : State Files) (e : Request × Outside) :
    State Files × Response ApiAnswer :=
  match destination e.1 with
  | .preflight => (state,.preflight)
  | .redirect path => (state,.redirect path)
  | .notFound => (state,.message 404 "404 page not found")
  | .handler handler vars => handle system state e.2 e.1 vars handler

end
end Zasper.Server
