import Zasper.CutTexts
import Zasper.SessionStarts

/-!
# The connection files

A kernel learns from its connection file where to listen and with which key to sign. The
file is named after the first six characters of the kernel's id and lies in the directory
for temporary files, with those of all other kernels; nothing removes it. It tells what
the server connects to (`file_read`), and goes on to do so for every active kernel as
long as no kernel is started whose id begins like that of an active one. A write that
fails is not noticed: the kernel is launched with a file that was cut short, which tells
nothing (`fits_of_describes`).
-/
namespace Zasper.ConnectionFiles
open Zasper.Maps Zasper.JsonValues Zasper.JsonText Zasper.CutTexts Zasper.Structs Zasper.Paths Zasper.Runs
open Zasper.Kernels Zasper.KernelManagers Zasper.KernelSupervisor
open Zasper.SessionStarts (ConnectionFileData connectionFileData wider encodeWide connectionFileBytes)
set_option linter.unusedSimpArgs false

/-! ## Reading a connection file -/

theorem connectionFileData_rereads : connectionFileData.Rereads id := by
  have rewriting : Rewriting id := .inl rfl
  intro d
  simp only [connectionFileData,struct]
  refine (decode_encode_fields ⟨by decide,by simp⟩ rewriting _ _).trans ?_
  iterate 3 rw [foldl_field (text_inverse _ rewriting)]
  iterate 5 rw [foldl_field int_rereads]
  iterate 2 rw [foldl_field (text_inverse _ rewriting)]
  all_goals rfl

theorem wider_space {spaces : List Char} (blank : ∀ c ∈ spaces, isSpace c = true) : ∀ c ∈ wider spaces, isSpace c = true := by
  unfold wider
  split
  · rename_i rest
    obtain ⟨newline,others⟩ := List.forall_mem_cons.mp blank
    refine List.forall_mem_cons.mpr ⟨newline,fun c inside => ?_⟩
    exact (List.mem_append.mp inside).elim (others c) (others c)
  · exact blank

/-- The text of a value that is indented by four for each level. -/
def wideText (j : Json) : List Char := (pieces true 0 [] j).flatMap (fun p => wider p.1 ++ tokenText p.2)

theorem encodeWide_eq (j : Json) : encodeWide j = utf8 (wideText j ++ ['\n']) := rfl

/-- A value is read back however far it is indented. -/
theorem parse_wideText (j : Json) {after : List Char} (blank : ∀ c ∈ after, isSpace c = true) :
    parse (wideText j ++ after) = some j := by
  have pieced : wideText j = ((pieces true 0 [] j).map (fun p => (wider p.1,p.2))).flatMap pieceText := by
    rw [List.flatMap_map]
    rfl
  have tokens_eq : ((pieces true 0 [] j).map (fun p => (wider p.1,p.2))).map (·.2) = tokens j := by
    rw [← pieces_tokens true 0 [] j,List.map_map]
    rfl
  have apart : Apart (tokens j) := by
    simpa using tokens_apart j [] trivial (fun _ none => by cases none)
  have spaces : ∀ p ∈ (pieces true 0 [] j).map (fun p => (wider p.1,p.2)), ∀ c ∈ p.1, isSpace c = true := by
    intro p inside
    obtain ⟨q,there,rfl⟩ := List.mem_map.mp inside
    exact wider_space (pieces_blank true 0 [] (by simp) j q there)
  have cut := lex_pieces blank _ spaces (by rw [tokens_eq]; exact apart) _ (Nat.le_refl _)
  have value : parseValue (tokens j).length (tokens j) = some (j,[]) := by
    simpa using parseValue_tokens j [] _ (Nat.le_refl _)
  rw [tokens_eq] at cut
  rw [pieced]
  simp [parse,-List.length_append,cut,value]

theorem newline_blank : ∀ c ∈ ['\n'], isSpace c = true := by simp [isSpace]

/-- The text of an object stands in braces. -/
theorem wideText_obj (members : List (String × Json)) : ∃ cs, wideText (.obj members) = '{' :: (cs ++ ['}']) := by
  obtain ⟨ps,gap,braces⟩ := pieces_obj true members
  refine ⟨ps.flatMap (fun p => wider p.1 ++ tokenText p.2) ++ wider gap,?_⟩
  rw [wideText,braces]
  simp [wider,tokenText]

theorem unmarshal_wide (data : ConnectionFileData) {after : List Char} (blank : ∀ c ∈ after, isSpace c = true) :
    connectionFileData.unmarshal (utf8 (wideText (connectionFileData.encode data) ++ after)) connectionFileData.zero =
      (data,none) := by
  have read : connectionFileData.decode connectionFileData.zero (connectionFileData.encode data) = ⟨data,false⟩ :=
    connectionFileData_rereads data
  rw [Codec.unmarshal,JsonText.unmarshal,decodeUtf8_utf8,parse_wideText _ blank,Codec.decodeParsed,read]
  rfl

/-! ## Files that were cut short -/

/-- What is left of a file, of which no more than a limit was written. -/
def cut (limit : Option Nat) (bytes : List UInt8) : List UInt8 :=
  match limit with
  | some n => bytes.take n
  | none => bytes

/-- Everything is written, but for the end of the last line. -/
def Fits (limit : Option Nat) (bytes : List UInt8) : Prop := ∀ n ∈ limit, bytes.length ≤ n + 1

theorem newline_bytes : utf8 ['\n'] = [0x0A] := by decide

theorem length_wide (j : Json) : (encodeWide j).length = (utf8 (wideText j)).length + 1 := by
  rw [encodeWide_eq,utf8_append,newline_bytes]
  simp

/-- What fits is a text with or without the end of its line. -/
theorem cut_fits {limit : Option Nat} {j : Json} (fits : Fits limit (encodeWide j)) :
    ∃ after, (∀ c ∈ after, isSpace c = true) ∧ cut limit (encodeWide j) = utf8 (wideText j ++ after) := by
  cases limit with
  | none => exact ⟨['\n'],newline_blank,rfl⟩
  | some n =>
    have enough := fits n rfl
    simp only [cut]
    by_cases all : (encodeWide j).length ≤ n
    · exact ⟨['\n'],newline_blank,List.take_of_length_le all⟩
    · refine ⟨[],by simp,?_⟩
      have exactly : n = (utf8 (wideText j)).length := by
        rw [length_wide] at enough all
        omega
      rw [encodeWide_eq,utf8_append,exactly,List.take_left,List.append_nil]

/-- What is left of an object can be read only if it fits. -/
theorem fits_of_read {limit : Option Nat} {members : List (String × Json)} {j : Json}
    (read : JsonText.unmarshal (cut limit (encodeWide (.obj members))) = some j) : Fits limit (encodeWide (.obj members)) := by
  rintro n rfl
  obtain ⟨body,braces⟩ := wideText_obj members
  have whole := parse_wideText (.obj members) newline_blank
  simp only [cut,encodeWide_eq] at read
  rw [braces,List.cons_append] at whole read
  obtain ⟨m,same,blank⟩ := unmarshal_cut whole read
  -- The brace at its end is no white space.
  have brace : body.length + 2 ≤ m := by
    by_contra short
    have inside : '}' ∈ ('{' :: (body ++ ['}'] ++ ['\n'])).drop m := by
      rw [show '{' :: (body ++ ['}'] ++ ['\n']) = ('{' :: body) ++ ['}','\n'] by simp,
        List.drop_append_of_le_length (by simp; omega)]
      simp
    exact absurd (blank _ inside) (by decide)
  have written := congrArg List.length same
  rw [length_wide,braces]
  have kept : (utf8 ('{' :: (body ++ ['}']))).length ≤ (utf8 (('{' :: (body ++ ['}'] ++ ['\n'])).take m)).length := by
    have longer : ('{' :: (body ++ ['}'] ++ ['\n'])).take m =
        ('{' :: (body ++ ['}'])) ++ ['\n'].take (m - (body.length + 2)) := by
      rw [show '{' :: (body ++ ['}'] ++ ['\n']) = ('{' :: (body ++ ['}'])) ++ ['\n'] by simp,List.take_append,
        List.take_of_length_le (by simp; omega)]
      simp
    rw [longer,utf8_append]
    simp
  rw [List.length_take] at written
  omega

/-- Where the file says that the kernel listens. -/
def connectionOf (data : ConnectionFileData) : Connection :=
  { transport := data.transport
    ip := data.ip
    hbPort := data.hbPort.toNatClampNeg
    shellPort := data.shellPort.toNatClampNeg
    iopubPort := data.iopubPort.toNatClampNeg
    stdinPort := data.stdinPort.toNatClampNeg
    controlPort := data.controlPort.toNatClampNeg }

/-- The file tells where the server connects to, and the key that it signs with. -/
def Describes (file : List UInt8) (km : KernelManager) : Prop :=
  ∃ data, connectionFileData.unmarshal file connectionFileData.zero = (data,none) ∧
    connectionOf data = km.connectionInfo ∧ data.key = km.key

/-- A file describes kernels of one key. -/
theorem Describes.key {file : List UInt8} {km other : KernelManager} (describes : Describes file km)
    (also : Describes file other) : km.key = other.key := by
  obtain ⟨data,read,-,key⟩ := describes
  obtain ⟨data',read',-,key'⟩ := also
  obtain rfl : data = data' := congrArg Prod.fst (read.symm.trans read')
  exact key.symm.trans key'

/-- The numbers that ports can have. -/
def SmallPorts (info : Connection) : Prop := ∀ port ∈ portsOf info, port ≤ 5999

/-- What is written for a kernel describes it. -/
theorem file_read {km : KernelManager} (small : SmallPorts km.connectionInfo) {limit : Option Nat}
    (fits : Fits limit (connectionFileBytes km)) : Describes (cut limit (connectionFileBytes km)) km := by
  have port : ∀ p ∈ portsOf km.connectionInfo, (Int64.ofNat p).toNatClampNeg = p := by
    intro p inside
    exact Int64.toNatClampNeg_ofNat_of_lt (lt_of_le_of_lt (small p inside) (by decide))
  have same : ∀ info : Connection, (∀ p ∈ portsOf info, (Int64.ofNat p).toNatClampNeg = p) →
      info = ⟨info.transport,info.ip,(Int64.ofNat info.hbPort).toNatClampNeg,(Int64.ofNat info.shellPort).toNatClampNeg
        ,(Int64.ofNat info.iopubPort).toNatClampNeg,(Int64.ofNat info.stdinPort).toNatClampNeg
        ,(Int64.ofNat info.controlPort).toNatClampNeg⟩ := by
    rintro ⟨transport,ip,hb,shell,iopub,stdin,control⟩ port
    simp only [portsOf,List.forall_mem_cons] at port
    obtain ⟨shell,iopub,stdin,hb,control,-⟩ := port
    simp only [shell,iopub,stdin,hb,control]
  obtain ⟨after,blank,left⟩ := cut_fits fits
  rw [connectionFileBytes,left]
  exact ⟨_,unmarshal_wide _ blank,(same km.connectionInfo port).symm,rfl⟩

/-- What is written for a kernel describes one only if it fits. -/
theorem fits_of_describes {km other : KernelManager} {limit : Option Nat}
    (describes : Describes (cut limit (connectionFileBytes km)) other) : Fits limit (connectionFileBytes km) := by
  obtain ⟨data,read,-⟩ := describes
  cases value : JsonText.unmarshal (cut limit (connectionFileBytes km)) with
  | none =>
    rw [Codec.unmarshal,value] at read
    cases read
  | some j => exact fits_of_read value

/-- A search finds a port from 5000 to 5999, or leaves 0. -/
theorem findAll_small (used : List Nat) (searches : List Search) : ∀ port ∈ (findAll used searches).2, port ≤ 5999 := by
  induction searches generalizing used with
  | nil => simp [findAll]
  | cons search rest ih =>
    rcases findAvailablePort_cases used search with ⟨port,finds,result⟩ | ⟨-,error,result⟩
    · simp only [findAll,result]
      exact List.forall_mem_cons.mpr ⟨finds.claimed.2.2,ih _⟩
    · simp only [findAll,result]
      exact List.forall_mem_cons.mpr ⟨Nat.zero_le _,ih _⟩

theorem newKernel_small (s : Supervisor) (req : SessionModel) (outside : SessionStart) (pid : Nat) :
    SmallPorts (newKernel s req outside pid).connectionInfo :=
  findAll_small s.currentlyUsedPorts outside.searches.list

/-! ## Their names -/

def fileName (kernelId : String) : String := "kernel-" ++ String.ofList (kernelId.toList.take 6) ++ ".json"

/-- The file of a kernel. -/
def pathOf (tempDir kernelId : String) : String := join [tempDir,fileName kernelId]

theorem fileName_toList (kernelId : String) :
    (fileName kernelId).toList = "kernel-".toList ++ kernelId.toList.take 6 ++ ".json".toList := by
  simp [fileName]

theorem names_fileName {kernelId : String} (plain : '/' ∉ kernelId.toList) :
    names (fileName kernelId) = [(fileName kernelId).toList] := by
  have name : Name (fileName kernelId).toList := by
    rw [fileName_toList]
    refine ⟨by simp,?_,?_⟩
    · intro same
      have first := congrArg List.head? same
      simp [dot] at first
    · intro slash
      have inside : '/' ∈ kernelId.toList.take 6 := by simpa using slash
      exact plain (List.mem_of_mem_take inside)
  simpa using names_single name

theorem names_pathOf (tempDir : String) {kernelId : String} (plain : '/' ∉ kernelId.toList) :
    names (pathOf tempDir kernelId) = resolve (isAbs tempDir) (names tempDir) ++ [(fileName kernelId).toList] := by
  have start : startsAbs [tempDir,fileName kernelId] = isAbs tempDir := by
    by_cases empty : tempDir = ""
    · subst empty
      simp [startsAbs,isAbs,fileName]
    · simp [startsAbs,empty]
  have noUp : dotdot ∉ [(fileName kernelId).toList] := by
    intro inside
    have same := List.mem_singleton.mp inside
    rw [fileName_toList] at same
    have first := congrArg List.head? same
    simp [dotdot] at first
  rw [pathOf,names_join,start]
  simp only [List.flatMap_cons,List.flatMap_nil,List.append_nil,names_fileName plain]
  exact resolve_append _ _ noUp

/-- Two kernels have one file if and only if their ids begin alike. -/
theorem pathOf_eq_iff (tempDir : String) {a b : String} (plainA : '/' ∉ a.toList) (plainB : '/' ∉ b.toList) :
    pathOf tempDir a = pathOf tempDir b ↔ a.toList.take 6 = b.toList.take 6 := by
  constructor
  · intro same
    have named := congrArg names same
    rw [names_pathOf tempDir plainA,names_pathOf tempDir plainB] at named
    have last := List.append_cancel_left named
    simpa [fileName_toList] using last
  · intro same
    rw [pathOf,pathOf,fileName,fileName,same]

/-! ## The server and its files -/

structure Server where
  supervisor : Supervisor
  files : Dict String (List UInt8)
  /-- The keys that were drawn. -/
  keys : List String

/-- A request, and the key that is drawn for the kernel that it may start. -/
structure Event where
  request : KernelSupervisor.Event
  key : Fresh String
  /-- How many bytes of a connection file are written, where writing it fails. -/
  limit : Option Nat

/-- A start with its key. The directory for temporary files is always the same. -/
def withKey (tempDir key : String) : KernelSupervisor.Event → KernelSupervisor.Event
  | .createSession req outside => .createSession req { outside with newIDBytes := key, tempDir := tempDir }
  | e => e

/-- The connection file that a request writes. It is written before the command is known
    and before the kernel is launched. -/
def written (s : Supervisor) : KernelSupervisor.Event → Option (String × List UInt8)
  | .createSession req outside =>
    if s.exited = false ∧ s.registry.sessions.get? req.id = none ∧ outside.creates = true then
      some (connectionFile outside.toStart (newKernelId s outside),connectionFileBytes (newKernel s req outside 0))
    else none
  | _ => none

section
variable (mac : List UInt8 → List UInt8 → List UInt8) (tempDir : String)

def step (s : Server) (e : Event) : Server × Reply :=
  let request := withKey tempDir (e.key.next s.keys) e.request
  let next := KernelSupervisor.step mac s.supervisor request
  ({ supervisor := next.1
     files := match written s.supervisor request with
       | some (path,bytes) => s.files.insert path (cut e.limit bytes)
       | none => s.files
     keys := e.key.next s.keys :: s.keys },next.2)

def booted (files : Dict String (List UInt8)) : Server := ⟨setUp,files,[]⟩

/-- Every active kernel has a file that describes it. -/
def Described (s : Server) : Prop :=
  ∀ k ∈ s.supervisor.registry.kernels.entries, ∃ file, s.files.get? (pathOf tempDir k.1) = some file ∧ Describes file k.2

end

/-- The id of a kernel that a file is written for does not begin like that of an active one. -/
def NewName (s : Server) (e : Event) : Prop :=
  match e.request with
  | .createSession req outside =>
    s.supervisor.exited = false → s.supervisor.registry.sessions.get? req.id = none → outside.creates = true →
      ∀ k ∈ s.supervisor.registry.kernels.entries,
        k.1.toList.take 6 ≠ (newKernelId s.supervisor outside).toList.take 6
  | _ => True

/-- The file of a kernel that is launched is written, at least up to the end of its last line. -/
def Whole (tempDir : String) (s : Server) (e : Event) : Prop :=
  match withKey tempDir (e.key.next s.keys) e.request with
  | .createSession req outside =>
    s.supervisor.exited = false → s.supervisor.registry.sessions.get? req.id = none →
      ∀ pid, newProcess s.supervisor outside = some pid →
        Fits e.limit (connectionFileBytes (newKernel s.supervisor req outside pid))
  | _ => True

/-! ## What a request does to the kernels and to the files -/

section
variable {mac : List UInt8 → List UInt8 → List UInt8} {tempDir : String} {s s' : Supervisor} {e : KernelSupervisor.Event}

/-- A request has started a kernel. -/
def Starts (s : Supervisor) (e : KernelSupervisor.Event) (k : String × KernelManager) : Prop :=
  ∃ req outside pid, e = .createSession req outside ∧ s.exited = false ∧ s.registry.sessions.get? req.id = none ∧
    newProcess s outside = some pid ∧ k = (newKernelId s outside,newKernel s req outside pid)

/-- What cannot be created is not launched. -/
theorem creates_of_process {outside : SessionStart} {pid : Nat} (process : newProcess s outside = some pid) :
    outside.creates = true := by
  by_contra cannot
  have none : launchCommand outside.toStart (newKernelId s outside) = none := by
    rw [launchCommand,if_pos (by simpa using cannot)]
  rw [newProcess,none] at process
  cases process

theorem kernels_change (change : Change mac s e s') :
    ∀ k ∈ s'.registry.kernels.entries, k ∈ s.registry.kernels.entries ∨ Starts s e k := by
  intro k member
  cases change with
  | @launched req outside pid live unknown process =>
    rcases Dict.mem_insert.mp member with new | ⟨old,-⟩
    · exact .inr ⟨req,outside,pid,rfl,live,unknown,process,new⟩
    · exact .inl old
  | ended live known stopped =>
    simp only [stopKernelManager,shutdownKernel] at stopped
    split_ifs at stopped
    obtain rfl := Option.some.inj stopped
    exact .inl member
  | stopped live =>
    simp only [killKernelById_kernels] at member
    exact .inl (Dict.mem_erase.mp member).1
  | deleted live known =>
    rw [kernelDelete_known known] at member
    simp only [killKernelById_kernels] at member
    exact .inl (Dict.mem_erase.mp member).1
  | _ => exact .inl member

theorem issued_change (change : Change mac s e s') : ∀ id ∈ s.issued, id ∈ s'.issued := by
  intro id old
  cases change with
  | existing live known => exact List.mem_cons_of_mem _ old
  | unstarted live unknown none => exact List.mem_cons_of_mem _ (List.mem_cons_of_mem _ old)
  | launched live unknown process => exact List.mem_cons_of_mem _ (List.mem_cons_of_mem _ old)
  | _ => exact old

theorem issued_kernels (change : Change mac s e s') (issued : ∀ k ∈ s.registry.kernels.entries, k.1 ∈ s.issued) :
    ∀ k ∈ s'.registry.kernels.entries, k.1 ∈ s'.issued := by
  intro k member
  rcases kernels_change change k member with old | ⟨req,outside,pid,rfl,live,unknown,-,rfl⟩
  · exact issued_change change _ (issued k old)
  · cases change with
    | gone exited =>
      rw [live] at exited
      cases exited
    | existing _ known =>
      rw [unknown] at known
      cases known
    | _ => exact List.mem_cons_self

/-- A start keeps the kernels that there are. -/
theorem kernels_kept {req : SessionModel} {outside : SessionStart} (change : Change mac s (.createSession req outside) s')
    (issued : ∀ k ∈ s.registry.kernels.entries, k.1 ∈ s.issued) :
    ∀ k ∈ s.registry.kernels.entries, k ∈ s'.registry.kernels.entries := by
  intro k old
  cases change with
  | launched live unknown process =>
    refine Dict.mem_insert.mpr (.inr ⟨old,?_⟩)
    rintro same
    exact newKernelId_fresh s outside (List.mem_cons_of_mem _ (same ▸ issued k old))
  | _ => exact old

/-- A kernel that is launched is active. -/
theorem launched_active {req : SessionModel} {outside : SessionStart} (change : Change mac s (.createSession req outside) s')
    (live : s.exited = false) (unknown : s.registry.sessions.get? req.id = none) {pid : Nat}
    (process : newProcess s outside = some pid) :
    (newKernelId s outside,newKernel s req outside pid) ∈ s'.registry.kernels.entries := by
  cases change with
  | gone exited =>
    rw [live] at exited
    cases exited
  | existing _ known =>
    rw [unknown] at known
    cases known
  | unstarted _ _ none =>
    rw [process] at none
    cases none
  | launched _ _ same =>
    obtain rfl := Option.some.inj (process.symm.trans same)
    exact Dict.mem_insert.mpr (.inl rfl)

/-- What a start writes, where it writes. -/
theorem written_some {path : String} {bytes : List UInt8} (writes : written s e = some (path,bytes)) :
    ∃ req outside, e = .createSession req outside ∧ s.exited = false ∧ s.registry.sessions.get? req.id = none ∧
      outside.creates = true ∧ path = connectionFile outside.toStart (newKernelId s outside) ∧
      bytes = connectionFileBytes (newKernel s req outside 0) := by
  cases e with
  | createSession req outside =>
    simp only [written] at writes
    split_ifs at writes with starts
    obtain ⟨rfl,rfl⟩ := Prod.mk.inj (Option.some.inj writes)
    exact ⟨req,outside,rfl,starts.1,starts.2.1,starts.2.2,rfl,rfl⟩
  | _ => cases writes

end

/-! ## Runs -/

/-- The kernels have ids that were drawn, keys that were drawn, and their files. -/
structure Inv (tempDir : String) (s : Server) : Prop where
  issued : ∀ k ∈ s.supervisor.registry.kernels.entries, k.1 ∈ s.supervisor.issued
  plain : ∀ k ∈ s.supervisor.registry.kernels.entries, '/' ∉ k.1.toList
  keys : ∀ k ∈ s.supervisor.registry.kernels.entries, k.2.key ∈ s.keys
  described : Described tempDir s

theorem inv_booted (tempDir : String) (files : Dict String (List UInt8)) : Inv tempDir (booted files) := by
  constructor <;> exact fun _ member => absurd member List.not_mem_nil

section
variable {mac : List UInt8 → List UInt8 → List UInt8} {tempDir : String} {s : Server} {e : Event}

theorem step_supervisor :
    Change mac s.supervisor (withKey tempDir (e.key.next s.keys) e.request) (step mac tempDir s e).1.supervisor :=
  step_change ..

theorem withKey_create {key : String} {request : KernelSupervisor.Event} {req : SessionModel} {outside : SessionStart}
    (same : withKey tempDir key request = .createSession req outside) :
    ∃ given, request = .createSession req given ∧ outside = { given with newIDBytes := key, tempDir := tempDir } := by
  cases request with
  | createSession req' given =>
    obtain ⟨rfl,rfl⟩ := KernelSupervisor.Event.createSession.inj same
    exact ⟨given,rfl,rfl⟩
  | _ => cases same

/-- The kernel of a start with its key. -/
def startedKernel (tempDir : String) (s : Server) (key : String) (req : SessionModel) (given : SessionStart) (pid : Nat) :
    KernelManager :=
  newKernel s.supervisor req { given with newIDBytes := key, tempDir := tempDir } pid

theorem written_create {key : String} {request : KernelSupervisor.Event} {req : SessionModel} {given : SessionStart}
    (asked : request = .createSession req given) (live : s.supervisor.exited = false)
    (unknown : s.supervisor.registry.sessions.get? req.id = none) (creates : given.creates = true) :
    written s.supervisor (withKey tempDir key request) =
      some (pathOf tempDir (newKernelId s.supervisor given),connectionFileBytes (startedKernel tempDir s key req given 0)) := by
  subst asked
  exact if_pos ⟨live,unknown,creates⟩

/-- With a new name, the file of an active kernel is not written again. -/
theorem file_kept (inv : Inv tempDir s) (newName : NewName s e) {k : String × KernelManager}
    (active : k ∈ s.supervisor.registry.kernels.entries) :
    (step mac tempDir s e).1.files.get? (pathOf tempDir k.1) = s.files.get? (pathOf tempDir k.1) := by
  simp only [step]
  split
  · rename_i path bytes writes
    obtain ⟨req,outside,request,live,unknown,creates,rfl,rfl⟩ := written_some writes
    obtain ⟨given,asked,rfl⟩ := withKey_create request
    apply Dict.get?_insert_other
    unfold NewName at newName
    rw [asked] at newName
    intro same
    apply newName live unknown creates k active
    exact (pathOf_eq_iff tempDir (inv.plain k active) (given.kernelId.plain _).2.1).mp same
  · rfl

/-- After a start the file of its name is the one that it wrote. -/
theorem started_file {req : SessionModel} {given : SessionStart} (asked : e.request = .createSession req given)
    (live : s.supervisor.exited = false) (unknown : s.supervisor.registry.sessions.get? req.id = none)
    (creates : given.creates = true) :
    (step mac tempDir s e).1.files.get? (pathOf tempDir (newKernelId s.supervisor given)) =
      some (cut e.limit (connectionFileBytes (startedKernel tempDir s (e.key.next s.keys) req given 0))) := by
  simp only [step,written_create asked live unknown creates]
  exact Dict.get?_insert_self ..

theorem inv_step (inv : Inv tempDir s) (newName : NewName s e) (whole : Whole tempDir s e) :
    Inv tempDir (step mac tempDir s e).1 := by
  have change : Change mac s.supervisor _ (step mac tempDir s e).1.supervisor := step_supervisor
  refine ⟨issued_kernels change inv.issued,fun k member => ?_,fun k member => ?_,fun k member => ?_⟩
  · rcases kernels_change change k member with old | ⟨req,outside,pid,-,-,-,-,rfl⟩
    · exact inv.plain k old
    · exact (outside.kernelId.plain _).2.1
  · rcases kernels_change change k member with old | ⟨req,outside,pid,request,-,-,-,rfl⟩
    · exact List.mem_cons_of_mem _ (inv.keys k old)
    · obtain ⟨given,-,rfl⟩ := withKey_create request
      exact List.mem_cons_self
  · rcases kernels_change change k member with old | ⟨req,outside,pid,request,live,unknown,process,rfl⟩
    · rw [file_kept inv newName old]
      exact inv.described k old
    · unfold Whole at whole
      rw [request] at whole
      have creates := creates_of_process process
      have fits := whole live unknown pid process
      obtain ⟨given,asked,rfl⟩ := withKey_create request
      have there := @started_file mac tempDir s e req given asked live unknown creates
      exact ⟨_,there,file_read (newKernel_small s.supervisor req _ pid) fits⟩

theorem newName_of_described (inv : Inv tempDir s) (described : Described tempDir (step mac tempDir s e).1) : NewName s e := by
  unfold NewName
  split
  · rename_i req given asked
    intro live unknown creates k active alike
    have change : Change mac s.supervisor _ (step mac tempDir s e).1.supervisor := step_supervisor
    rw [asked] at change
    obtain ⟨file,there,describes⟩ := described k (kernels_kept change inv.issued k active)
    -- The file of the active kernel is the one that was just written.
    have path : pathOf tempDir k.1 = pathOf tempDir (newKernelId s.supervisor given) :=
      (pathOf_eq_iff tempDir (inv.plain k active) (given.kernelId.plain _).2.1).mpr alike
    rw [path,started_file asked live unknown creates] at there
    obtain rfl := Option.some.inj there
    have key : k.2.key = e.key.next s.keys :=
      describes.key (file_read (newKernel_small s.supervisor req _ 0) (fits_of_describes describes))
    have drawn := inv.keys k active
    rw [key] at drawn
    exact e.key.fresh s.keys drawn
  · trivial

theorem whole_of_described (described : Described tempDir (step mac tempDir s e).1) : Whole tempDir s e := by
  have change : Change mac s.supervisor _ (step mac tempDir s e).1.supervisor := step_supervisor
  unfold Whole
  split
  · rename_i req outside request
    intro live unknown pid process
    rw [request] at change
    obtain ⟨file,there,describes⟩ := described _ (launched_active change live unknown process)
    have creates := creates_of_process process
    obtain ⟨given,asked,rfl⟩ := withKey_create request
    obtain rfl := Option.some.inj ((started_file asked live unknown creates).symm.trans there)
    exact fits_of_describes describes
  · trivial

end

/-- Every active kernel has, in every state of a run, a connection file that says where
    the server connects to and which key it signs with, if and only if no connection file
    is written for a kernel whose id begins with the six characters of an active one's,
    and no write fails for a kernel that is launched before its file says everything. -/
theorem always_described_iff (mac : List UInt8 → List UInt8 → List UInt8) (tempDir : String)
    (files : Dict String (List UInt8)) (events : List Event) :
    Always (step mac tempDir) (Described tempDir) (booted files) events ↔
      Meets (step mac tempDir) (fun s e => NewName s e ∧ Whole tempDir s e) (booted files) events := by
  apply always_iff_meets (fun s (inv : Inv tempDir s) => inv.described)
  · exact fun _ _ inv good => inv_step inv good.1 good.2
  · exact fun _ _ inv described => ⟨newName_of_described inv described,whole_of_described described⟩
  · exact inv_booted tempDir files

end Zasper.ConnectionFiles
