import Zasper.KernelSupervisor
import Zasper.Kernelspecs

/-!
# The start of a session

CreateSession with the files that it reads and writes: the spec of the kernel is looked
up twice, for the kernel's entry and for its command, and the connection file is written
in between. `atomic_iff` says when it creates all of a session or nothing.
-/
namespace Zasper.SessionStarts
open Zasper.Maps Zasper.JsonValues Zasper.JsonText Zasper.Structs Zasper.Paths Zasper.Programs Zasper.OperatingSystem
open Zasper.Kernels Zasper.KernelManagers Zasper.Kernelspecs
open Zasper.KernelSupervisor (Supervisor SessionStart)
set_option linter.unusedSimpArgs false

/-! ## The connection file -/

structure ConnectionFileData where
  transport : String
  ip : String
  key : String
  stdinPort : Int64
  iopubPort : Int64
  shellPort : Int64
  hbPort : Int64
  controlPort : Int64
  signatureScheme : String
  kernelName : String

def connectionFileData : Codec ConnectionFileData := struct ⟨"","","",0,0,0,0,0,"",""⟩
  [ field "transport" text (·.transport) (fun s v => { s with transport := v })
  , field "ip" text (·.ip) (fun s v => { s with ip := v })
  , field "key" text (·.key) (fun s v => { s with key := v })
  , field "stdin_port" int (·.stdinPort) (fun s v => { s with stdinPort := v })
  , field "iopub_port" int (·.iopubPort) (fun s v => { s with iopubPort := v })
  , field "shell_port" int (·.shellPort) (fun s v => { s with shellPort := v })
  , field "hb_port" int (·.hbPort) (fun s v => { s with hbPort := v })
  , field "control_port" int (·.controlPort) (fun s v => { s with controlPort := v })
  , field "signature_scheme" text (·.signatureScheme) (fun s v => { s with signatureScheme := v })
  , field "kernel_name" text (·.kernelName) (fun s v => { s with kernelName := v }) ]

/-- The white space before a token, with every level indented twice as far. -/
def wider : List Char → List Char
  | '\n' :: spaces => '\n' :: (spaces ++ spaces)
  | other => other

/-- A value indented by four for each level, and a new line. -/
def encodeWide (j : Json) : List UInt8 :=
  utf8 ((pieces true 0 [] j).flatMap (fun p => wider p.1 ++ tokenText p.2) ++ ['\n'])

def connectionFileBytes (km : KernelManager) : List UInt8 :=
  encodeWide (connectionFileData.encode
    { transport := km.connectionInfo.transport
      ip := km.connectionInfo.ip
      key := km.key
      stdinPort := Int64.ofNat km.connectionInfo.stdinPort
      iopubPort := Int64.ofNat km.connectionInfo.iopubPort
      shellPort := Int64.ofNat km.connectionInfo.shellPort
      hbPort := Int64.ofNat km.connectionInfo.hbPort
      controlPort := Int64.ofNat km.connectionInfo.controlPort
      signatureScheme := "hmac-sha256"
      kernelName := km.kernelName })

/-- The name of the file is asked for before the error of its creation is looked at; the
    error of the writing is not looked at. -/
def writeConnectionFile (connectionFile : String) (km : KernelManager) : Os Unit :=
  .call (.openFile connectionFile) (fun
    | some _ => .stop .nilResult
    | none => .call (.writeFile connectionFile (connectionFileBytes km)) (fun _ => pure ()))

/-! ## Starting -/

/-- A kernel with the spec that its provisioner has. -/
structure ActiveKernel where
  manager : KernelManager
  kernelspec : KernelSpecJsonData
deriving DecidableEq

structure Server where
  sessions : Dict String SessionModel
  kernels : Dict String ActiveKernel
  processes : List Nat
  currentlyUsedPorts : List Nat
  issued : List String
deriving DecidableEq

section
variable (jupyterPath : List String)

/-- The start with the command and the connection file that were found. -/
def started (outside : SessionStart) (argv : List String) (creates : Bool) : SessionStart :=
  { outside with argv := argv, creates := creates }

/-- The first of no arguments is out of range. -/
def formatKernelCmd (outside : SessionStart) (kernelName : String) : Os (List String) := do
  let spec ← getKernelSpec jupyterPath kernelName
  match KernelManagers.formatKernelCmd (started outside (spec.argv.getD []) true).toStart with
  | none => .stop .outOfRange
  | some cmd => pure cmd

/-- The ports in use, the manager with its own and the command. -/
def preLaunch (outside : SessionStart) (currentlyUsedPorts : List Nat) (km : KernelManager) :
    Os (List Nat × KernelManager × List String) := do
  let (used,info) := preLaunchPorts currentlyUsedPorts outside.searches km.connectionInfo
  let km := { km with connectionInfo := info }
  writeConnectionFile (connectionFile outside.toStart km.kernelId) km
  let kernelCmd ← formatKernelCmd jupyterPath outside km.kernelName
  pure (used,km,kernelCmd)

/-- The ports in use after the start, and the kernel that is running, if one is. -/
def startKernel (outside : SessionStart) (currentlyUsedPorts processes : List Nat) (km : KernelManager) :
    Os (List Nat × Option ActiveKernel) := do
  let spec ← getKernelSpec jupyterPath km.kernelName
  let (used,km,kernelCmd) ← preLaunch jupyterPath outside currentlyUsedPorts km
  let cmd := kernelCmd.map (fun arg => if arg = "{connection_file}" then connectionFile outside.toStart km.kernelId else arg)
  match outside.starts cmd with
  | none => pure (used,none)
  | some process => pure (used,some ⟨{ km with pid := process.next (0 :: processes) },spec⟩)

def startKernelManager (outside : SessionStart) (s : Server) (kernelName : String) : Os (Server × Option String) := do
  let kernelId := outside.kernelId.next s.issued
  let km := createKernelManager outside.toStart kernelName kernelId
  let (used,running) ← startKernel jupyterPath outside s.currentlyUsedPorts s.processes km
  let s := { s with currentlyUsedPorts := used, issued := kernelId :: s.issued }
  match running with
  | none => pure (s,none)
  | some kernel =>
    pure ({ s with
        kernels := s.kernels.insert kernelId kernel
        processes := kernel.manager.pid :: s.processes },some kernelId)

/-- The session, or none where the kernel could not be started. -/
def createSession (outside : SessionStart) (s : Server) (req : SessionModel) : Os (Server × Option SessionModel) := do
  let sessionId := outside.sessionId.next s.issued
  let s := { s with issued := sessionId :: s.issued }
  match s.sessions.get? req.id with
  | some session => pure (s,some session)
  | none =>
    match ← startKernelManager jupyterPath outside s req.kernel.name with
    | (s,none) => pure (s,none)
    | (s,some kernelId) =>
      let session : SessionModel :=
        { id := sessionId
          name := req.name
          sessionType := req.sessionType
          path := req.path
          kernel := ⟨kernelId,req.kernel.name,outside.now,"",0⟩ }
      pure ({ s with sessions := s.sessions.insert sessionId session },some session)

end

/-! ## What is met and what is left -/

section
variable {Files : Type} (fileSystem : FileSystem Files) (jupyterPath : List String) (outside : SessionStart) (s : Server)
  (req : SessionModel) (files : Files)

/-- The spec that is looked up, from the working directory where no directory has the
    kernel. -/
def foundSpec (kernelName : String) : KernelSpecJsonData :=
  specAt fileSystem files (((dirsWith fileSystem files jupyterPath kernelName).head?.map (fun dir => join [dir,kernelName])).getD "")

def newSessionId : String := outside.sessionId.next s.issued

def newKernelId : String := outside.kernelId.next (newSessionId outside s :: s.issued)

def newManager : KernelManager :=
  let km := createKernelManager outside.toStart req.kernel.name (newKernelId outside s)
  { km with connectionInfo := (preLaunchPorts s.currentlyUsedPorts outside.searches km.connectionInfo).2 }

def newFile : String := connectionFile outside.toStart (newKernelId outside s)

/-- The connection file can be created. -/
def Creates : Prop := (fileSystem.answer files (.openFile (newFile outside s))).2 = none

instance : Decidable (Creates fileSystem outside s files) := inferInstanceAs (Decidable (_ = none))

/-- The files with the connection file among them. -/
def withFile : Files :=
  (fileSystem.answer (fileSystem.answer files (.openFile (newFile outside s))).1
    (.writeFile (newFile outside s) (connectionFileBytes (newManager outside s req)))).1

/-- The command of the spec that the files have once the connection file is there; none
    where the spec has no arguments. -/
def command : Option (List String) :=
  let argv := (foundSpec fileSystem jupyterPath (withFile fileSystem outside s req files) req.kernel.name).argv.getD []
  launchCommand (started outside argv true).toStart (newKernelId outside s)

/-- The server after a start that has drawn its ids and claimed its ports. -/
def claimed : Server :=
  { s with
    currentlyUsedPorts := (preLaunchPorts s.currentlyUsedPorts outside.searches
      (createKernelManager outside.toStart req.kernel.name (newKernelId outside s)).connectionInfo).1
    issued := newKernelId outside s :: newSessionId outside s :: s.issued }

def newKernel (process : Fresh Nat) : ActiveKernel :=
  ⟨{ newManager outside s req with pid := process.next (0 :: s.processes) }
  ,foundSpec fileSystem jupyterPath files req.kernel.name⟩

def newSession : SessionModel :=
  { id := newSessionId outside s
    name := req.name
    sessionType := req.sessionType
    path := req.path
    kernel := ⟨newKernelId outside s,req.kernel.name,outside.now,"",0⟩ }

def launched (process : Fresh Nat) : Server :=
  { claimed outside s req with
    sessions := s.sessions.insert (newSessionId outside s) (newSession outside s req)
    kernels := s.kernels.insert (newKernelId outside s) (newKernel fileSystem jupyterPath outside s req files process)
    processes := process.next (0 :: s.processes) :: s.processes }

/-- A directory on the Jupyter path has the kernel with the spec. -/
def Provided (kernelName : String) (spec : KernelSpecJsonData) : Prop :=
  ∃ dir ∈ dirsWith fileSystem files jupyterPath kernelName, spec = specAt fileSystem files (join [dir,kernelName])

/-- All of a session or nothing, from the server before and how the program ended. -/
def Atomic : Except Stop (Server × Option SessionModel) → Prop
  | .error _ => False
  | .ok (after,none) => after.sessions = s.sessions ∧ after.kernels = s.kernels
  | .ok (after,some session) => after.sessions.get? session.id = some session ∧
      ∃ kernel, after.kernels.get? session.kernel.id = some kernel ∧
        Provided fileSystem jupyterPath files req.kernel.name kernel.kernelspec

/-- A known session is stored under its id and has a kernel of the requested name. For a
    new one the connection file can be created and the spec has arguments; and a directory
    has the kernel, or it cannot be started. -/
def Ready : Prop :=
  match s.sessions.get? req.id with
  | some session => s.sessions.get? session.id = some session ∧
      ∃ kernel, s.kernels.get? session.kernel.id = some kernel ∧
        Provided fileSystem jupyterPath files req.kernel.name kernel.kernelspec
  | none => Creates fileSystem outside s files ∧ ∃ cmd, command fileSystem jupyterPath outside s req files = some cmd ∧
      (outside.starts cmd = none ∨ dirsWith fileSystem files jupyterPath req.kernel.name ≠ [])

end

/-! ## Runs -/

section
variable {Files : Type} {fileSystem : FileSystem Files} {jupyterPath : List String} {outside : SessionStart} {s : Server}
  {req : SessionModel} {files : Files}

theorem run_getKernelSpec (kernelName : String) :
    (getKernelSpec jupyterPath kernelName).run fileSystem.answer files =
      (files,.ok (foundSpec fileSystem jupyterPath files kernelName)) := finds_getKernelSpec jupyterPath kernelName

theorem run_formatKernelCmd (kernelName : String) :
    (formatKernelCmd jupyterPath outside kernelName).run fileSystem.answer files =
      (files,match KernelManagers.formatKernelCmd
          (started outside ((foundSpec fileSystem jupyterPath files kernelName).argv.getD []) true).toStart with
        | none => .error .outOfRange
        | some cmd => .ok cmd) := by
  rw [formatKernelCmd,Program.run_bind,run_getKernelSpec]
  simp only
  split <;> rfl

/-- A known session is handed back. -/
theorem run_existing {session : SessionModel} (known : s.sessions.get? req.id = some session) :
    (createSession jupyterPath outside s req).run fileSystem.answer files =
      (files,.ok ({ s with issued := newSessionId outside s :: s.issued },some session)) := by
  simp only [createSession,known]
  rfl

theorem run_startKernel (km : KernelManager) (used processes : List Nat) :
    (startKernel jupyterPath outside used processes km).run fileSystem.answer files =
      let info := preLaunchPorts used outside.searches km.connectionInfo
      let opened := fileSystem.answer files (.openFile (connectionFile outside.toStart km.kernelId))
      match opened.2 with
      | some _ => (opened.1,.error .nilResult)
      | none =>
        let files' := (fileSystem.answer opened.1 (.writeFile (connectionFile outside.toStart km.kernelId)
          (connectionFileBytes { km with connectionInfo := info.2 }))).1
        let argv := (foundSpec fileSystem jupyterPath files' km.kernelName).argv.getD []
        (files',match launchCommand (started outside argv true).toStart km.kernelId with
          | none => .error .outOfRange
          | some cmd =>
            match outside.starts cmd with
            | none => .ok (info.1,none)
            | some process => .ok (info.1,some ⟨{ km with
                connectionInfo := info.2
                pid := process.next (0 :: processes) },foundSpec fileSystem jupyterPath files km.kernelName⟩)) := by
  simp only [startKernel,preLaunch,writeConnectionFile,Program.run_bind,run_getKernelSpec,Program.run_call]
  cases (fileSystem.answer files (.openFile (connectionFile outside.toStart km.kernelId))).2 with
  | some e => rfl
  | none =>
    simp only [Program.run_call,Program.run_pure,run_formatKernelCmd,launchCommand]
    generalize (fileSystem.answer (fileSystem.answer files (.openFile (connectionFile outside.toStart km.kernelId))).1
      (.writeFile (connectionFile outside.toStart km.kernelId) (connectionFileBytes { km with
        connectionInfo := (preLaunchPorts used outside.searches km.connectionInfo).2 }))).1 = files'
    cases KernelManagers.formatKernelCmd
        (started outside ((foundSpec fileSystem jupyterPath files' km.kernelName).argv.getD []) true).toStart with
    | none => rfl
    | some cmd =>
      simp only [Option.map_some,started,Bool.not_true,Bool.false_eq_true,↓reduceIte]
      have same : connectionFile { outside.toStart with
          argv := (foundSpec fileSystem jupyterPath files' km.kernelName).argv.getD [], creates := true } km.kernelId =
          connectionFile outside.toStart km.kernelId := rfl
      rw [same]
      split <;> rfl

theorem run_startKernel_new :
    (startKernel jupyterPath outside s.currentlyUsedPorts s.processes
        (createKernelManager outside.toStart req.kernel.name (newKernelId outside s))).run fileSystem.answer files =
      if Creates fileSystem outside s files then
        (withFile fileSystem outside s req files,match command fileSystem jupyterPath outside s req files with
          | none => .error .outOfRange
          | some cmd =>
            match outside.starts cmd with
            | none => .ok ((claimed outside s req).currentlyUsedPorts,none)
            | some process => .ok ((claimed outside s req).currentlyUsedPorts
              ,some (newKernel fileSystem jupyterPath outside s req files process)))
      else ((fileSystem.answer files (.openFile (newFile outside s))).1,.error .nilResult) := by
  rw [run_startKernel]
  simp only
  split_ifs with creates
  · have opened : (fileSystem.answer files (.openFile (connectionFile outside.toStart (createKernelManager outside.toStart
        req.kernel.name (newKernelId outside s)).kernelId))).2 = none := creates
    simp only [opened]
    rfl
  · obtain ⟨e,opened⟩ : ∃ e, (fileSystem.answer files (.openFile (connectionFile outside.toStart
        (createKernelManager outside.toStart req.kernel.name (newKernelId outside s)).kernelId))).2 = some e :=
      Option.ne_none_iff_exists'.mp creates
    simp only [opened]
    rfl

/-- How a session that is not known is created, or is not. -/
theorem run_new (unknown : s.sessions.get? req.id = none) :
    (createSession jupyterPath outside s req).run fileSystem.answer files =
      if Creates fileSystem outside s files then
        (withFile fileSystem outside s req files,match command fileSystem jupyterPath outside s req files with
          | none => .error .outOfRange
          | some cmd =>
            match outside.starts cmd with
            | none => .ok (claimed outside s req,none)
            | some process => .ok (launched fileSystem jupyterPath outside s req files process,some (newSession outside s req)))
      else ((fileSystem.answer files (.openFile (newFile outside s))).1,.error .nilResult) := by
  have ran := @run_startKernel_new Files fileSystem jupyterPath outside s req files
  simp only [newKernelId,newSessionId] at ran
  simp only [createSession,unknown,startKernelManager,Program.run_bind,ran]
  split_ifs with creates
  · cases command fileSystem jupyterPath outside s req files with
    | none => rfl
    | some cmd =>
      simp only
      cases outside.starts cmd <;> rfl
  · rfl

/-- A session is created whole or not at all if and only if a known one is in order, and a
    new one finds its file, its arguments and its directory. -/
theorem atomic_iff (fileSystem : FileSystem Files) (jupyterPath : List String) (outside : SessionStart) (s : Server)
    (req : SessionModel) (files : Files) :
    Atomic fileSystem jupyterPath s req files ((createSession jupyterPath outside s req).run fileSystem.answer files).2 ↔
      Ready fileSystem jupyterPath outside s req files := by
  unfold Ready
  cases known : s.sessions.get? req.id with
  | some session =>
    rw [run_existing known]
    rfl
  | none =>
    rw [run_new known]
    by_cases creates : Creates fileSystem outside s files
    · rw [if_pos creates]
      cases found : command fileSystem jupyterPath outside s req files with
      | none => simp [Atomic]
      | some cmd =>
        cases launch : outside.starts cmd with
        | none => simp [Atomic,creates,launch,claimed]
        | some process =>
          simp only [creates,Option.some.injEq,exists_eq_left',launch,reduceCtorEq,false_or,true_and]
          constructor
          · rintro ⟨-,kernel,-,dir,inside,-⟩ none
            rw [none] at inside
            cases inside
          · intro some
            obtain ⟨dir,rest,dirs⟩ := List.exists_cons_of_ne_nil some
            refine ⟨Dict.get?_insert_self ..,_,Dict.get?_insert_self ..,dir,by simp [dirs],?_⟩
            simp [newKernel,foundSpec,dirs]
    · rw [if_neg creates]
      simp [Atomic,creates]

/-- A kernel that no directory has, where the working directory has no `kernel.json`. -/
theorem unprovided_panics :
    ¬ Atomic everywhere [] ⟨.empty,.empty,[],[],[]⟩ KernelSupervisor.request ()
      ((createSession [] KernelSupervisor.quietStart ⟨.empty,.empty,[],[],[]⟩ KernelSupervisor.request).run everywhere.answer ()).2 := by
  have creates : Creates everywhere KernelSupervisor.quietStart ⟨.empty,.empty,[],[],[]⟩ () := rfl
  have none : command everywhere [] KernelSupervisor.quietStart ⟨.empty,.empty,[],[],[]⟩ KernelSupervisor.request () = none := rfl
  rw [run_new rfl,if_pos creates,none]
  exact id

/-! ## The supervisor -/

/-- What the supervisor of the kernels has of a server. -/
def Server.supervisor (s : Server) : Supervisor :=
  { KernelSupervisor.setUp with
    registry := { KernelSupervisor.setUp.registry with
      sessions := s.sessions
      kernels := s.kernels.map (fun _ kernel => kernel.manager)
      processes := s.processes }
    currentlyUsedPorts := s.currentlyUsedPorts
    issued := s.issued }

/-- The creation of a session among the files is that of the supervisor, with the command
    and the connection file that are found there. -/
theorem createSession_supervisor (unknown : s.sessions.get? req.id = none) :
    let argv := (foundSpec fileSystem jupyterPath (withFile fileSystem outside s req files) req.kernel.name).argv.getD []
    let supervised := KernelSupervisor.createSession (started outside argv (decide (Creates fileSystem outside s files)))
      s.supervisor req
    match ((createSession jupyterPath outside s req).run fileSystem.answer files).2 with
    | .ok (after,some session) => supervised = (after.supervisor,.created session)
    | .ok (after,none) => supervised.1 = after.supervisor ∧ ∀ session, supervised.2 ≠ .created session
    | .error _ => ∀ session, supervised.2 ≠ .created session := by
  intro argv supervised
  have known : s.supervisor.registry.sessions.get? req.id = none := unknown
  have supervises := KernelSupervisor.createSession_new (started outside argv (decide (Creates fileSystem outside s files))) known
  rw [run_new unknown]
  by_cases creates : Creates fileSystem outside s files
  · simp only [if_pos creates]
    have process : KernelSupervisor.newProcess s.supervisor
        (started outside argv (decide (Creates fileSystem outside s files))) =
        ((command fileSystem jupyterPath outside s req files).bind outside.starts).map
          (fun process => process.next (0 :: s.processes)) := by
      rw [decide_eq_true creates]
      rfl
    rw [process] at supervises
    cases found : command fileSystem jupyterPath outside s req files with
    | none =>
      rcases supervises with ⟨-,-,fails⟩ | ⟨pid,running,-⟩
      · exact fails
      · rw [found] at running
        cases running
    | some cmd =>
      simp only [found,Option.bind_some] at supervises ⊢
      cases launch : outside.starts cmd with
      | none =>
        rcases supervises with ⟨-,claims,fails⟩ | ⟨pid,running,-⟩
        · exact ⟨claims,fails⟩
        · rw [launch] at running
          cases running
      | some process =>
        rcases supervises with ⟨idle,-⟩ | ⟨pid,running,same⟩
        · rw [launch] at idle
          cases idle
        · rw [launch] at running
          obtain rfl : process.next (0 :: s.processes) = pid := Option.some.inj running
          simp only
          refine same.trans ?_
          have kernels : (s.kernels.insert (newKernelId outside s)
              (newKernel fileSystem jupyterPath outside s req files process)).map (fun _ kernel => kernel.manager) =
              (s.kernels.map (fun _ kernel => kernel.manager)).insert (newKernelId outside s)
                (newKernel fileSystem jupyterPath outside s req files process).manager := Dict.map_insert ..
          simp only [Server.supervisor,launched,kernels]
          rfl
  · simp only [if_neg creates]
    rcases supervises with ⟨-,-,fails⟩ | ⟨pid,running,-⟩
    · exact fails
    · rw [decide_eq_false creates] at running
      cases running

end
end Zasper.SessionStarts
