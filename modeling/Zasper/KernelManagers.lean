import Zasper.Kernels
import Zasper.Paths

/-!
# Starting kernels

How the server finds five ports for a kernel, writes its connection file and launches
it. A search for a port draws a hundred numbers at most; it skips the ports that were
claimed before and those that cannot be bound, and its error is not looked at: a
search without a result leaves the port 0. What is claimed is never released.
-/
namespace Zasper.KernelManagers
open Zasper.Paths Zasper.Kernels
set_option linter.unusedSimpArgs false

/-! ## Ports -/

/-- A number that is drawn, and whether its port can be bound. -/
structure PortTry where
  draw : Fin 1000
  available : Bool
deriving DecidableEq

def PortTry.port (t : PortTry) : Nat := t.draw.val + 5000

/-- What one search draws, attempt by attempt. -/
abbrev Search := Nat → PortTry

def portExists (currentlyUsedPorts : List Nat) (portNum : Nat) : Bool := currentlyUsedPorts.any (· == portNum)

def maxAttempts : Nat := 100

/-- The attempts that are left, from the given one on. -/
def attemptFrom (currentlyUsedPorts : List Nat) (search : Search) : (left attempt : Nat) → Option Nat
  | 0, _ => none
  | left+1, attempt =>
    let port := (search attempt).port
    if portExists currentlyUsedPorts port then attemptFrom currentlyUsedPorts search left (attempt+1)
    else if !(search attempt).available then attemptFrom currentlyUsedPorts search left (attempt+1)
    else some port

/-- The ports in use after the search, the port that was found and the error. -/
def findAvailablePort (currentlyUsedPorts : List Nat) (search : Search) : List Nat × Nat × Option String :=
  match attemptFrom currentlyUsedPorts search maxAttempts 0 with
  | some port => (currentlyUsedPorts ++ [port],port,none)
  | none => (currentlyUsedPorts,0,some ("could not find available port after " ++ natText maxAttempts ++ " attempts"))

/-- The searches of one start. -/
structure Searches where
  shell : Search
  iopub : Search
  stdin : Search
  hb : Search
  control : Search

/-- The ports that `preLaunch` finds; the errors are not looked at. -/
def preLaunchPorts (currentlyUsedPorts : List Nat) (searches : Searches) (info : Connection) : List Nat × Connection :=
  let (used,shellPort,_) := findAvailablePort currentlyUsedPorts searches.shell
  let (used,iopubPort,_) := findAvailablePort used searches.iopub
  let (used,stdinPort,_) := findAvailablePort used searches.stdin
  let (used,hbPort,_) := findAvailablePort used searches.hb
  let (used,controlPort,_) := findAvailablePort used searches.control
  (used,{ info with
    shellPort := shellPort
    iopubPort := iopubPort
    stdinPort := stdinPort
    hbPort := hbPort
    controlPort := controlPort })

/-! ## Starting -/

/-- A source of values that are not in use. -/
structure Fresh (α : Type) where
  next : List α → α
  fresh : ∀ used, next used ∉ used

/-- What a start meets outside: the draws, the key of the session, the directory for
    temporary files, the command of the kernelspec, whether the connection file can be
    created and a `python` can be run, and the number that the system gives to the
    process of a command, if it can be started. -/
structure Start where
  searches : Searches
  newIDBytes : String
  tempDir : String
  argv : List String
  creates : Bool
  python : Bool
  starts : List String → Option (Fresh Nat)

inductive Started where
  /-- A nil file or the first of no arguments was followed. -/
  | panicked
  | failed
  | running (km : KernelManager)

def connectionFile (start : Start) (kernelId : String) : String :=
  join [start.tempDir,"kernel-" ++ String.ofList (kernelId.toList.take 6) ++ ".json"]

/-- The command with the interpreter that is there; none where there is no argument. -/
def formatKernelCmd (start : Start) : Option (List String) :=
  match start.argv with
  | [] => none
  | first :: rest =>
    if first = "python3" ∨ first = "python" then some ((if start.python then "python" else "python3") :: rest)
    else some (first :: rest)

/-- The command that is run, with the name of the connection file in it. -/
def launchCommand (start : Start) (kernelId : String) : Option (List String) :=
  if !start.creates then none
  else (formatKernelCmd start).map (fun cmd =>
    cmd.map (fun arg => if arg = "{connection_file}" then connectionFile start kernelId else arg))

def createKernelManager (start : Start) (kernelName kernelId : String) : KernelManager :=
  { kernelId := kernelId
    kernelName := kernelName
    connectionInfo := ⟨"tcp","127.0.0.1",0,0,0,0,0⟩
    key := start.newIDBytes
    pid := 0 }

/-- The ports in use after the start, and how it ends. The ports are claimed before
    anything can fail. A process has a number that is not 0 and that no other has. -/
def startKernel (start : Start) (currentlyUsedPorts processes : List Nat) (km : KernelManager) : List Nat × Started :=
  let (used,info) := preLaunchPorts currentlyUsedPorts start.searches km.connectionInfo
  match launchCommand start km.kernelId with
  | none => (used,.panicked)
  | some kernelCmd =>
    match start.starts kernelCmd with
    | none => (used,.failed)
    | some process => (used,.running { km with connectionInfo := info, pid := process.next (0 :: processes) })

/-! ## What a search finds -/

def portsOf (info : Connection) : List Nat :=
  [info.shellPort,info.iopubPort,info.stdinPort,info.hbPort,info.controlPort]

def Searches.list (searches : Searches) : List Search :=
  [searches.shell,searches.iopub,searches.stdin,searches.hb,searches.control]

/-- The ports in use after searches one after the other, and what they found. -/
def findAll (used : List Nat) : List Search → List Nat × List Nat
  | [] => (used,[])
  | search :: rest =>
    let found := findAvailablePort used search
    let later := findAll found.1 rest
    (later.1,found.2.1 :: later.2)

theorem preLaunchPorts_eq (used : List Nat) (searches : Searches) (info : Connection) :
    ((preLaunchPorts used searches info).1,portsOf (preLaunchPorts used searches info).2) =
      findAll used searches.list := rfl

/-- The number can be claimed as a port. -/
def Claimable (used : List Nat) (t : PortTry) : Prop := t.available = true ∧ t.port ∉ used

/-- An attempt of the search draws a port that can be claimed, and it is the first one. -/
def FindsPort (used : List Nat) (search : Search) (port : Nat) : Prop :=
  ∃ attempt < maxAttempts, Claimable used (search attempt) ∧ (search attempt).port = port ∧
    ∀ earlier < attempt, ¬ Claimable used (search earlier)

/-- No attempt of the search draws a port that can be claimed. -/
def Exhausted (used : List Nat) (search : Search) : Prop :=
  ∀ attempt < maxAttempts, ¬ Claimable used (search attempt)

/-- Every search finds a port, the later ones outside of what the earlier ones found. -/
def Supplied (used : List Nat) : List Search → Prop
  | [] => True
  | search :: rest => ∃ port, FindsPort used search port ∧ Supplied (used ++ [port]) rest

theorem portExists_iff {used : List Nat} {port : Nat} : portExists used port = true ↔ port ∈ used := by
  simp [portExists]

/-- By induction on the attempts that are left. -/
theorem attemptFrom_eq (used : List Nat) (search : Search) (left attempt : Nat) :
    (∃ n, n < left ∧ Claimable used (search (attempt+n)) ∧
        attemptFrom used search left attempt = some (search (attempt+n)).port ∧
        ∀ earlier < n, ¬ Claimable used (search (attempt+earlier))) ∨
      (attemptFrom used search left attempt = none ∧ ∀ n < left, ¬ Claimable used (search (attempt+n))) := by
  induction left generalizing attempt with
  | zero => exact .inr ⟨rfl,fun n small => absurd small (by omega)⟩
  | succ left ih =>
    by_cases claimable : Claimable used (search attempt)
    · left
      refine ⟨0,by omega,claimable,?_,fun earlier small => absurd small (by omega)⟩
      have free : portExists used (search attempt).port = false := by
        rw [← Bool.not_eq_true,portExists_iff]
        exact claimable.2
      simp [attemptFrom,free,claimable.1]
    · have skipped : attemptFrom used search (left+1) attempt = attemptFrom used search left (attempt+1) := by
        rw [attemptFrom]
        by_cases taken : portExists used (search attempt).port = true
        · rw [if_pos taken]
        · have unavailable : (search attempt).available = false := by
            rw [portExists_iff] at taken
            by_contra available
            exact claimable ⟨by simpa using available,taken⟩
          simp [taken,unavailable]
      rw [skipped]
      rcases ih (attempt+1) with ⟨n,small,here,found,earlier⟩ | ⟨none,all⟩
      · left
        have place : attempt+1+n = attempt+(n+1) := by omega
        rw [place] at here found
        refine ⟨n+1,by omega,here,found,?_⟩
        intro m below
        cases m with
        | zero => exact claimable
        | succ m =>
          have := earlier m (by omega)
          rwa [show attempt+1+m = attempt+(m+1) by omega] at this
      · right
        refine ⟨none,?_⟩
        intro n small
        cases n with
        | zero => exact claimable
        | succ n =>
          have := all n (by omega)
          rwa [show attempt+1+n = attempt+(n+1) by omega] at this

/-- A search finds a port and claims it, or it is exhausted and leaves the port 0. -/
theorem findAvailablePort_cases (used : List Nat) (search : Search) :
    (∃ port, FindsPort used search port ∧ findAvailablePort used search = (used ++ [port],port,none)) ∨
      (Exhausted used search ∧ ∃ error, findAvailablePort used search = (used,0,some error)) := by
  rcases attemptFrom_eq used search maxAttempts 0 with ⟨n,small,claimable,found,earlier⟩ | ⟨none,all⟩
  · left
    rw [Nat.zero_add] at claimable found
    refine ⟨_,⟨n,small,claimable,rfl,fun m below => ?_⟩,by rw [findAvailablePort,found]⟩
    simpa using earlier m below
  · right
    refine ⟨fun n small => ?_,_,by rw [findAvailablePort,none]⟩
    simpa using all n small

theorem FindsPort.claimed {used : List Nat} {search : Search} {port : Nat} (finds : FindsPort used search port) :
    port ∉ used ∧ 5000 ≤ port ∧ port ≤ 5999 := by
  obtain ⟨attempt,small,claimable,rfl,earlier⟩ := finds
  have bound := (search attempt).draw.isLt
  exact ⟨claimable.2,by unfold PortTry.port; omega,by unfold PortTry.port; omega⟩

theorem FindsPort.not_exhausted {used : List Nat} {search : Search} {port : Nat} (finds : FindsPort used search port) :
    ¬ Exhausted used search := by
  obtain ⟨attempt,small,claimable,-,-⟩ := finds
  exact fun exhausted => exhausted attempt small claimable

/-- One search finds one port. -/
theorem FindsPort.unique {used : List Nat} {search : Search} {port other : Nat} (finds : FindsPort used search port)
    (also : FindsPort used search other) : port = other := by
  obtain ⟨m,_,claimable,rfl,earlier⟩ := finds
  obtain ⟨n,_,claimable',rfl,earlier'⟩ := also
  rcases Nat.lt_trichotomy m n with below | same | above
  · exact absurd claimable (earlier' m below)
  · rw [same]
  · exact absurd claimable' (earlier n above)

/-! ## What the searches of a start find -/

/-- What searches that are supplied find: new ports, each once, and nothing else is claimed. -/
theorem findAll_supplied {searches : List Search} {used : List Nat} (supplied : Supplied used searches) :
    (findAll used searches).1 = used ++ (findAll used searches).2 ∧ (findAll used searches).2.Nodup ∧
      ∀ port ∈ (findAll used searches).2, port ∉ used ∧ 5000 ≤ port ∧ port ≤ 5999 := by
  induction searches generalizing used with
  | nil => simp [findAll]
  | cons search rest ih =>
    obtain ⟨port,finds,later⟩ := supplied
    rcases findAvailablePort_cases used search with ⟨other,found,result⟩ | ⟨exhausted,-⟩
    · obtain rfl := finds.unique found
      obtain ⟨claims,nodup,ports⟩ := ih later
      simp only [findAll,result]
      refine ⟨by rw [claims,List.append_assoc]; rfl,?_,?_⟩
      · refine List.nodup_cons.mpr ⟨fun again => ?_,nodup⟩
        exact (ports port again).1 (by simp)
      · refine List.forall_mem_cons.mpr ⟨finds.claimed,fun other member => ?_⟩
        obtain ⟨new,range⟩ := ports other member
        exact ⟨fun old => new (List.mem_append_left _ old),range⟩
    · exact absurd exhausted finds.not_exhausted

/-- A search without a result leaves the port 0. -/
theorem findAll_unsupplied {searches : List Search} {used : List Nat} (unsupplied : ¬ Supplied used searches) :
    0 ∈ (findAll used searches).2 := by
  induction searches generalizing used with
  | nil => exact absurd trivial unsupplied
  | cons search rest ih =>
    rcases findAvailablePort_cases used search with ⟨port,finds,result⟩ | ⟨-,error,result⟩
    · simp only [findAll,result]
      exact List.mem_cons_of_mem _ (ih (fun later => unsupplied ⟨port,finds,later⟩))
    · simp [findAll,result]

/-- Every search claims a port from 5000 to 5999, or nothing. -/
theorem findAll_claims (searches : List Search) (used : List Nat) :
    ∃ claimed, (findAll used searches).1 = used ++ claimed ∧ ∀ port ∈ claimed, 5000 ≤ port ∧ port ≤ 5999 := by
  induction searches generalizing used with
  | nil => exact ⟨[],by simp [findAll],by simp⟩
  | cons search rest ih =>
    rcases findAvailablePort_cases used search with ⟨port,finds,result⟩ | ⟨-,error,result⟩
    · obtain ⟨claimed,split,range⟩ := ih (used ++ [port])
      refine ⟨port :: claimed,by simp [findAll,result,split],?_⟩
      exact List.forall_mem_cons.mpr ⟨finds.claimed.2,range⟩
    · obtain ⟨claimed,split,range⟩ := ih used
      exact ⟨claimed,by simp [findAll,result,split],range⟩

/-- Nothing is claimed if and only if all searches are exhausted. -/
theorem findAll_idle_iff (searches : List Search) (used : List Nat) :
    (findAll used searches).1 = used ↔ ∀ search ∈ searches, Exhausted used search := by
  induction searches generalizing used with
  | nil => simp [findAll]
  | cons search rest ih =>
    rw [List.forall_mem_cons]
    rcases findAvailablePort_cases used search with ⟨port,finds,result⟩ | ⟨exhausted,error,result⟩
    · have grown : (findAll used (search :: rest)).1 ≠ used := by
        obtain ⟨claimed,split,-⟩ := findAll_claims rest (used ++ [port])
        simp [findAll,result,split]
      simp [grown,finds.not_exhausted]
    · simp [findAll,result,ih used,exhausted]

end Zasper.KernelManagers
