import Zasper.Http
import Zasper.KernelSession

/-!
# Sessions, kernels and their connections

The three registries of the server, the contexts of the connections and the
processes of the kernels; the handlers that connect a browser to a kernel and that
delete a kernel. What a handler meets outside (`Outside`) comes with each request.
-/
namespace Zasper.Kernels
open Zasper.Maps Zasper.JsonValues Zasper.Http Zasper.KernelMessages Zasper.KernelSession
set_option linter.unusedSimpArgs false

structure KernelModel where
  id : String
  name : String
  lastActivity : String
  executionState : String
  connections : Int64
deriving DecidableEq

structure SessionModel where
  id : String
  path : String
  name : String
  sessionType : String
  kernel : KernelModel
deriving DecidableEq

/-- Where a kernel listens. -/
structure Connection where
  transport : String
  ip : String
  hbPort : Nat
  shellPort : Nat
  iopubPort : Nat
  stdinPort : Nat
  controlPort : Nat
deriving DecidableEq

structure KernelManager where
  kernelId : String
  kernelName : String
  connectionInfo : Connection
  /-- The key of its session. -/
  key : String
  /-- The process, 0 where none was started. -/
  pid : Nat
deriving DecidableEq

def KernelManager.zero : KernelManager := ⟨"","",⟨"","",0,0,0,0,0⟩,"",0⟩

def natText (n : Nat) : String := String.ofList (Nat.toDigits 10 n)

def Connection.makeURL (conn : Connection) (port : Nat) : String :=
  if conn.transport = "tcp" then "tcp://" ++ conn.ip ++ ":" ++ natText port
  else conn.transport ++ "://" ++ conn.ip ++ "-" ++ natText port

structure KernelWebSocketConnection where
  kernelId : String
  kernelManager : KernelManager
  /-- The URL that the socket of each channel is connected to. -/
  channels : List (String × String)
  key : String
  context : Nat
deriving DecidableEq

/-- The registries and what stands behind them. -/
structure Registry where
  sessions : Dict String SessionModel
  kernels : Dict String KernelManager
  connections : Dict String KernelWebSocketConnection
  /-- The contexts that were not cancelled. -/
  polling : List Nat
  /-- The processes of the kernels. -/
  processes : List Nat
  /-- The messages that the processes were sent, by URL. -/
  sent : List (String × List Frame)
deriving DecidableEq

def createStream (km : KernelManager) : List (String × String) :=
  let cinfo := km.connectionInfo
  [ ("iopub",cinfo.makeURL cinfo.iopubPort)
  , ("shell",cinfo.makeURL cinfo.shellPort)
  , ("control",cinfo.makeURL cinfo.controlPort)
  , ("stdin",cinfo.makeURL cinfo.stdinPort)
  , ("hb",cinfo.makeURL cinfo.hbPort) ]

/-- What a handler meets: whether the handshake is accepted, a context that is not in
    use, and what goes into the header of a message. -/
structure Outside where
  upgrades : Bool
  context : Nat
  id : String
  date : String
  userName : String
  /-- Whether a process can be killed. -/
  kills : Nat → Bool

def protocolVersion : String := "5.3"

def messageFromString (outside : Outside) (key value : String) : Message :=
  { Message.zero with
    header := ⟨outside.id,value,outside.userName,key,outside.date,protocolVersion⟩
    msgId := outside.id
    content := .ofJson (.obj [])
    metadata := .ofJson (.obj [])
    buffers := some [] }

/-- The kernel is asked for its information on a socket of its own. -/
def nudge (mac : List UInt8 → List UInt8 → List UInt8) (outside : Outside) (km : KernelManager) : String × List Frame :=
  (km.connectionInfo.makeURL km.connectionInfo.shellPort,
    serialize mac (JsonText.utf8 km.key.toList) (messageFromString outside km.key "kernel_info_request"))

inductive Answer where
  | notFound
  /-- The handshake failed. -/
  | refused
  | connected
  | deleted (text : String)
  /-- A nil connection was followed. -/
  | panicked
deriving DecidableEq

def handleWebSocket (mac : List UInt8 → List UInt8 → List UInt8) (outside : Outside) (registry : Registry)
    (kernelId sessionId : String) : Registry × Answer :=
  match registry.sessions.get? sessionId,registry.kernels.get? kernelId with
  | none,_ => (registry,.notFound)
  | some _,none => (registry,.notFound)
  | some _,some km =>
    if !outside.upgrades then (registry,.refused)
    else
      ({ registry with
          connections := registry.connections.insert kernelId ⟨kernelId,km,createStream km,km.key,outside.context⟩
          polling := outside.context :: registry.polling
          sent := registry.sent ++ [nudge mac outside km] }
      ,.connected)

/-- A process with the number 0 is none. -/
def killKernel (outside : Outside) (pid : Nat) (registry : Registry) : Registry :=
  if pid ≠ 0 ∧ outside.kills pid = true then { registry with processes := registry.processes.erase pid } else registry

/-- An unknown kernel is the zero kernel. -/
def killKernelById (outside : Outside) (kernelId : String) (registry : Registry) : Registry :=
  let km := (registry.kernels.get? kernelId).getD .zero
  let killed := killKernel outside km.pid registry
  { killed with kernels := killed.kernels.erase kernelId }

def kernelDeleteAPIHandler (outside : Outside) (registry : Registry) (kernelID : String) : Registry × Answer :=
  match registry.connections.get? kernelID with
  | none => (registry,.panicked)
  | some kwsConn =>
    let cancelled :=
      { registry with
        polling := registry.polling.erase kwsConn.context
        connections := registry.connections.erase kernelID }
    (killKernelById outside kernelID cancelled,.deleted ("Kernel with ID " ++ kernelID ++ " deleted successfully."))

/-- A connection needs a session, a kernel and a handshake. -/
theorem handleWebSocket_refused {mac : List UInt8 → List UInt8 → List UInt8} {outside : Outside} {registry : Registry}
    {kernelId sessionId : String}
    (refused : registry.sessions.get? sessionId = none ∨ registry.kernels.get? kernelId = none ∨ outside.upgrades = false) :
    (handleWebSocket mac outside registry kernelId sessionId).1 = registry := by
  unfold handleWebSocket
  split
  · rfl
  · rfl
  · rename_i session kernel
    rw [session,kernel] at refused
    simp_all

section
variable (outside : Outside) (kernelId : String) (pid : Nat) (registry : Registry)

@[simp] theorem killKernel_sessions : (killKernel outside pid registry).sessions = registry.sessions := by
  unfold killKernel
  split_ifs <;> rfl
@[simp] theorem killKernel_kernels : (killKernel outside pid registry).kernels = registry.kernels := by
  unfold killKernel
  split_ifs <;> rfl
@[simp] theorem killKernel_connections : (killKernel outside pid registry).connections = registry.connections := by
  unfold killKernel
  split_ifs <;> rfl
@[simp] theorem killKernel_polling : (killKernel outside pid registry).polling = registry.polling := by
  unfold killKernel
  split_ifs <;> rfl

variable {outside} {pid} {registry} in
theorem killKernel_nodup (nodup : registry.processes.Nodup) : (killKernel outside pid registry).processes.Nodup := by
  unfold killKernel
  split_ifs
  · exact nodup.erase pid
  · exact nodup

@[simp] theorem killKernelById_sessions : (killKernelById outside kernelId registry).sessions = registry.sessions :=
  killKernel_sessions ..
@[simp] theorem killKernelById_kernels :
    (killKernelById outside kernelId registry).kernels = registry.kernels.erase kernelId :=
  congrArg (·.erase kernelId) (killKernel_kernels ..)
@[simp] theorem killKernelById_connections :
    (killKernelById outside kernelId registry).connections = registry.connections := killKernel_connections ..
@[simp] theorem killKernelById_polling : (killKernelById outside kernelId registry).polling = registry.polling :=
  killKernel_polling ..

/-- No process is killed but the kernel's. -/
theorem killKernelById_processes {km : KernelManager} (known : registry.kernels.get? kernelId = some km) :
    (killKernelById outside kernelId registry).processes =
      if km.pid ≠ 0 ∧ outside.kills km.pid = true then registry.processes.erase km.pid else registry.processes := by
  simp only [killKernelById,known,Option.getD_some,killKernel]
  split_ifs <;> rfl

theorem killKernelById_unknown {outside : Outside} {kernelId : String} {registry : Registry}
    (unknown : registry.kernels.get? kernelId = none) : killKernelById outside kernelId registry = registry := by
  have kept : killKernel outside KernelManager.zero.pid registry = registry := by simp [killKernel,KernelManager.zero]
  simp only [killKernelById,unknown,Option.getD_none,kept,Dict.erase_of_missing unknown]

end

/-- A kernel that is connected is killed, and its connection cancelled. -/
theorem kernelDelete_known {outside : Outside} {registry : Registry} {kernelID : String}
    {kwsConn : KernelWebSocketConnection} (known : registry.connections.get? kernelID = some kwsConn) :
    kernelDeleteAPIHandler outside registry kernelID =
      (killKernelById outside kernelID
        { registry with
          polling := registry.polling.erase kwsConn.context
          connections := registry.connections.erase kernelID }
      ,.deleted ("Kernel with ID " ++ kernelID ++ " deleted successfully.")) := by
  rw [kernelDeleteAPIHandler,known]

theorem kernelDelete_unknown {outside : Outside} {registry : Registry} {kernelID : String}
    (unknown : registry.connections.get? kernelID = none) :
    kernelDeleteAPIHandler outside registry kernelID = (registry,.panicked) := by
  rw [kernelDeleteAPIHandler,unknown]

end Zasper.Kernels
