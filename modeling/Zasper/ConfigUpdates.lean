import Mathlib.Data.List.DropRight
import Zasper.ConfigFile
import Zasper.Runs

/-!
# Updates of the configuration

The calls that read the configuration, change a field and write all of it back, at the
same time, where each reading and each writing is one step. `updates_kept` says in
which runs no change is lost.
-/
namespace Zasper.ConfigUpdates
open Zasper.JsonText Zasper.Structs Zasper.Programs Zasper.OperatingSystem Zasper.Runs Zasper.ConfigFile
set_option linter.unusedSimpArgs false

/-! ## The calls -/

inductive Call where
  | readConfig
  | writeConfig (value : Config)

/-- Reading and writing answer as their programs end. -/
abbrev Reply : Call → Type
  | .readConfig => Except Stop (Except ConfigError Config)
  | .writeConfig _ => Except Stop (Option ConfigError)

/-- A call returns an error, or what it was asked for. -/
abbrev Update := Program Call Reply (Except ConfigError (Option String))

/-- Goes on with the result of a program, or stops as it has stopped. -/
def resume {α : Type} (result : Except Stop α) : Program Call Reply α :=
  match result with
  | .ok a => pure a
  | .error why => .stop why

/-- After a configuration was written. -/
def wrote (returned : Config → Option String) (changed : Config) (reply : Except Stop (Option ConfigError)) : Update := do
  match ← resume reply with
  | some e => pure (.error e)
  | none => pure (.ok (returned changed))

/-- After the configuration was read: it is changed and written, where `change` changes it. -/
def wasRead (change : Config → Option Config) (returned : Config → Option String)
    (reply : Except Stop (Except ConfigError Config)) : Update := do
  match ← resume reply with
  | .error e => pure (.error e)
  | .ok value =>
    match change value with
    | none => pure (.ok (returned value))
    | some changed => .call (.writeConfig changed) (wrote returned changed)

def update (change : Config → Option Config) (returned : Config → Option String) : Update :=
  .call .readConfig (wasRead change returned)

/-- A list without the items before its last five. -/
def lastFive {α : Type} (items : List α) : List α := items.drop (items.length - 5)

def projectsOf (value : Config) : List String := value.lastProjects.getD []

def withProject (projectName : String) (value : Config) : Option Config :=
  let lastProjects := projectsOf value ++ [projectName]
  some { value with lastProjects := some (if lastProjects.length > 5 then lastFive lastProjects else lastProjects) }

def withSomeTheme (value : Config) : Option Config := if value.theme = "" then some { value with theme := "light" } else none

def withTheme (theme : String) (value : Config) : Option Config := some { value with theme := theme }

def hexDigits : List Char := "0123456789abcdef".toList

structure UUID where
  digits : List Char
  length_eq : digits.length = 32
  hex : ∀ c ∈ digits, c ∈ hexDigits

/-- The digits in groups of 8, 4, 4, 4 and 12. -/
def UUID.string (id : UUID) : String :=
  let group (start length : Nat) := (id.digits.drop start).take length
  String.ofList (group 0 8 ++ '-' :: group 8 4 ++ '-' :: group 12 4 ++ '-' :: group 16 4 ++ '-' :: group 20 12)

def newTrackingID (id : UUID) : String := String.ofList ((id.string.toList.filter (· ≠ '-')).take 21)

/-- The bytes of a text are counted. -/
def len (text : String) : Nat := (utf8 text.toList).length

def withTrackingID (id : UUID) (value : Config) : Option Config :=
  if len value.trackingID ≠ 21 then some { value with trackingID := newTrackingID id } else none

def addProject (projectName : String) : Update := update (withProject projectName) (fun _ => none)

def getTheme : Update := update withSomeTheme (fun value => some value.theme)

def changeTheme (theme : String) : Update := update (withTheme theme) (fun _ => none)

def getAnonymousTrackingId (id : UUID) : Update :=
  update (withTrackingID id) (fun value => some value.trackingID)

/-- A call, with the id that it makes if it needs one. -/
inductive Request where
  | getTheme
  | changeTheme (theme : String)
  | addProject (projectName : String)
  | getAnonymousTrackingId (id : UUID)

def Request.program : Request → Update
  | .getTheme => ConfigUpdates.getTheme
  | .changeTheme theme => ConfigUpdates.changeTheme theme
  | .addProject projectName => ConfigUpdates.addProject projectName
  | .getAnonymousTrackingId id => ConfigUpdates.getAnonymousTrackingId id

/-! ## The calls at the same time -/

/-- Files in which what was written is read back. -/
structure ConfigDisk (Files : Type) extends FileSystem Files where
  userHomeDir : Except OsError String
  written : ∀ files path bytes, (answer files (.writeFile path bytes)).2 = none →
    (answer (answer files (.writeFile path bytes)).1 (.readFile path)).2 = .ok bytes

structure Task where
  request : Request
  rest : Update

structure Site (Files : Type) where
  files : Files
  tasks : List Task

inductive Event where
  | start (request : Request)
  /-- The call makes its next step. -/
  | call (task : Nat)

section
variable {Files : Type} (disk : ConfigDisk Files)

def answer (files : Files) : (c : Call) → Files × Reply c
  | .readConfig => Program.run disk.answer files (readConfig disk.userHomeDir)
  | .writeConfig value => Program.run disk.answer files (writeConfig disk.userHomeDir value)

/-- A call that has returned is left alone. -/
def step (s : Site Files) : Event → Site Files × Unit
  | .start request => ({ s with tasks := s.tasks ++ [⟨request,request.program⟩] },())
  | .call i =>
    match s.tasks[i]? with
    | some ⟨request,.call c next⟩ =>
      let (files,reply) := answer disk s.files c
      (⟨files,s.tasks.set i ⟨request,next reply⟩⟩,())
    | _ => (s,())

/-- The configuration is what the file would be read as. -/
def Reads (files : Files) (value : Config) : Prop := (answer disk files .readConfig).2 = .ok (.ok value)

/-! ## What is to be kept -/

def Task.Returned (task : Task) : Prop := ∃ text, task.rest = .done (.ok text)

def Request.added : Request → Option String
  | .addProject projectName => some projectName
  | _ => none

def Site.requests (s : Site Files) : List Request := s.tasks.map Task.request

/-- What the calls have made of the first configuration. -/
structure Kept (initial : Config) (s : Site Files) (final : Config) : Prop where
  theme : (∃ theme, .changeTheme theme ∈ s.requests) → .changeTheme final.theme ∈ s.requests
  projects : ∃ added, added.Perm (s.requests.filterMap Request.added) ∧
    projectsOf final = lastFive (projectsOf initial ++ added)
  trackingID : ∀ task ∈ s.tasks, ∀ id, task.request = .getAnonymousTrackingId id →
    task.rest = .done (.ok (some final.trackingID))

/-- How a call changes a configuration. -/
def Request.change : Request → Config → Option Config
  | .getTheme => withSomeTheme
  | .changeTheme theme => withTheme theme
  | .addProject projectName => withProject projectName
  | .getAnonymousTrackingId id => withTrackingID id

/-- The configuration that a call leaves where no other comes in between. -/
def Request.left (request : Request) (value : Config) : Config := (request.change value).getD value

/-- The call writes what it would leave had it read the file just now, and getTheme does
    not write over an empty theme that a changeTheme has set. -/
def Good (s : Site Files) : Event → Prop
  | .start _ => True
  | .call i => ∀ request changed next, s.tasks[i]? = some ⟨request,.call (.writeConfig changed) next⟩ →
      ∀ value, Reads disk s.files value → changed = request.left value ∧
        (request = .getTheme → (∃ task ∈ s.tasks, task.Returned ∧ ∃ theme, task.request = .changeTheme theme) →
          value.theme ≠ "")

end

/-! ## One configuration -/

theorem lastFive_if {α : Type} (items : List α) : (if items.length > 5 then lastFive items else items) = lastFive items := by
  split_ifs with long
  · rfl
  · rw [lastFive,show items.length - 5 = 0 by omega,List.drop_zero]

theorem lastFive_append {α : Type} (items : List α) (x : α) : lastFive (lastFive items ++ [x]) = lastFive (items ++ [x]) := by
  have five : ∀ l : List α, lastFive l = l.rtake 5 := fun _ => rfl
  have four : (items.rtake 5).rtake 4 = items.rtake 4 := by
    simp only [List.rtake_eq_reverse_take_reverse,List.reverse_reverse,List.take_take]
    rfl
  rw [five,five,five,List.rtake_concat_succ,List.rtake_concat_succ,four]

/-- Without the lines between its groups an id is its digits. -/
theorem UUID.filter_string (id : UUID) : id.string.toList.filter (· ≠ '-') = id.digits := by
  have plain : hexDigits.all (· ≠ '-') = true := by decide
  have kept : ∀ start length, ((id.digits.drop start).take length).filter (· ≠ '-') = (id.digits.drop start).take length := by
    intro start length
    apply List.filter_eq_self.mpr
    intro c member
    exact List.all_eq_true.mp plain c (id.hex c (List.mem_of_mem_drop (List.mem_of_mem_take member)))
  have joined : ∀ start length, (id.digits.drop start).take length ++ id.digits.drop (start + length) = id.digits.drop start := by
    intro start length
    rw [← List.drop_drop,List.take_append_drop]
  have last : (id.digits.drop 20).take 12 = id.digits.drop 20 := by
    apply List.take_of_length_le
    rw [List.length_drop,id.length_eq]
  have dash : ∀ cs : List Char, ('-' :: cs).filter (· ≠ '-') = cs.filter (· ≠ '-') := fun cs => List.filter_cons_of_neg (by simp)
  simp only [UUID.string,String.toList_ofList,List.filter_append,dash,kept]
  rw [last,List.append_assoc,List.append_assoc,List.append_assoc,joined 16 4,joined 12 4,joined 8 4,joined 0 8,List.drop_zero]

theorem len_newTrackingID (id : UUID) : len (newTrackingID id) = 21 := by
  have single : hexDigits.all (fun c => (String.utf8EncodeChar c).length = 1) = true := by decide
  have ascii : ∀ cs : List Char, (∀ c ∈ cs, c ∈ hexDigits) → (utf8 cs).length = cs.length := by
    intro cs hex
    induction cs with
    | nil => rfl
    | cons c cs ih =>
      obtain ⟨here,later⟩ := List.forall_mem_cons.mp hex
      rw [utf8,List.flatMap_cons,List.length_append,of_decide_eq_true (List.all_eq_true.mp single c here),← utf8,
        ih later,List.length_cons,Nat.add_comm]
  rw [len,newTrackingID,id.filter_string,String.toList_ofList,ascii _ fun c member => id.hex c (List.mem_of_mem_take member),
    List.length_take,id.length_eq]
  rfl

theorem projectsOf_left (projectName : String) (value : Config) :
    projectsOf ((Request.addProject projectName).left value) = lastFive (projectsOf value ++ [projectName]) := by
  simp only [Request.left,Request.change,withProject,Option.getD_some,projectsOf]
  exact lastFive_if _

/-- A tracking id of 21 bytes stays. -/
theorem trackingID_left (request : Request) {value : Config} (sized : len value.trackingID = 21) :
    (request.left value).trackingID = value.trackingID := by
  cases request with
  | getTheme =>
    simp only [Request.left,Request.change,withSomeTheme]
    split_ifs <;> rfl
  | getAnonymousTrackingId id => simp [Request.left,Request.change,withTrackingID,sized]
  | _ => rfl

theorem len_trackingID_left (id : UUID) (value : Config) :
    len ((Request.getAnonymousTrackingId id).left value).trackingID = 21 := by
  simp only [Request.left,Request.change,withTrackingID]
  split_ifs with other
  · exact len_newTrackingID id
  · exact of_not_not other

/-- What the calls, one after the other, have made of the first configuration. -/
structure Served (initial : Config) (order : List Request) (value : Config) : Prop where
  theme : (∃ theme, .changeTheme theme ∈ order) → .changeTheme value.theme ∈ order
  projects : projectsOf value =
    if order.filterMap Request.added = [] then projectsOf initial
    else lastFive (projectsOf initial ++ order.filterMap Request.added)

theorem Served.serve {initial value : Config} {order : List Request} (served : Served initial order value) {request : Request}
    (spares : request = .getTheme → (∃ theme, .changeTheme theme ∈ order) → value.theme ≠ "") :
    Served initial (order ++ [request]) (request.left value) := by
  have projectsKept : ∀ kept, request.added = none → projectsOf kept = projectsOf value → projectsOf kept =
      if (order ++ [request]).filterMap Request.added = [] then projectsOf initial
      else lastFive (projectsOf initial ++ (order ++ [request]).filterMap Request.added) := by
    intro kept noProject same
    rw [same,List.filterMap_append,List.filterMap_cons_none noProject,List.filterMap_nil,List.append_nil]
    exact served.projects
  have themeKept : ∀ kept : Config, kept.theme = value.theme → (∀ theme, request ≠ .changeTheme theme) →
      (∃ theme, .changeTheme theme ∈ order ++ [request]) → .changeTheme kept.theme ∈ order ++ [request] := by
    rintro kept same noTheme ⟨theme,member⟩
    have earlier : .changeTheme theme ∈ order := by simpa [Ne.symm (noTheme theme)] using member
    rw [same]
    exact List.mem_append_left _ (served.theme ⟨theme,earlier⟩)
  cases request with
  | getTheme =>
    have unchanged : projectsOf (Request.getTheme.left value) = projectsOf value := by
      simp only [Request.left,Request.change,withSomeTheme]
      split_ifs <;> rfl
    refine ⟨?_,projectsKept _ rfl unchanged⟩
    by_cases set : ∃ theme, .changeTheme theme ∈ order
    · apply themeKept
      · simp [Request.left,Request.change,withSomeTheme,spares rfl set]
      · rintro theme ⟨⟩
    · rintro ⟨theme,member⟩
      exact absurd ⟨theme,by simpa using member⟩ set
  | changeTheme theme => exact ⟨fun _ => List.mem_append_right _ (List.mem_singleton_self _),projectsKept _ rfl rfl⟩
  | addProject projectName =>
    refine ⟨themeKept _ rfl (by rintro theme ⟨⟩),?_⟩
    have more : (order ++ [Request.addProject projectName]).filterMap Request.added = order.filterMap Request.added ++ [projectName] := by
      rw [List.filterMap_append]
      rfl
    have some : order.filterMap Request.added ++ [projectName] ≠ [] := by simp
    rw [projectsOf_left,served.projects,more,if_neg some]
    split_ifs with first
    · rw [first,List.nil_append]
    · rw [lastFive_append,List.append_assoc]
  | getAnonymousTrackingId id =>
    have unchanged : projectsOf ((Request.getAnonymousTrackingId id).left value) = projectsOf value ∧
        ((Request.getAnonymousTrackingId id).left value).theme = value.theme := by
      by_cases sized : len value.trackingID = 21 <;>
        simp [Request.left,Request.change,withTrackingID,projectsOf,sized]
    refine ⟨themeKept ((Request.getAnonymousTrackingId id).left value) unchanged.2 ?_,projectsKept _ rfl unchanged.1⟩
    rintro theme ⟨⟩

/-! ## Runs -/

def Request.returned : Request → Config → Option String
  | .getTheme, value => some value.theme
  | .getAnonymousTrackingId _, value => some value.trackingID
  | _, _ => none

theorem program_eq (request : Request) : request.program = update request.change request.returned := by cases request <;> rfl

/-- Where a call stands that has not failed. -/
inductive Stage : Task → Prop where
  | fresh (request : Request) : Stage ⟨request,request.program⟩
  | pending (request : Request) (changed : Config) :
    Stage ⟨request,.call (.writeConfig changed) (wrote request.returned changed)⟩
  | returned (request : Request) (text : Option String) : Stage ⟨request,.done (.ok text)⟩

def Task.Failed (task : Task) : Prop := (∃ e, task.rest = .done (.error e)) ∨ ∃ why, task.rest = .stop why

/-- The request of a call that has returned. -/
def Task.served (task : Task) : Option Request :=
  match task.rest with
  | .done (.ok _) => some task.request
  | _ => none

theorem Task.served_iff {task : Task} {request : Request} :
    task.served = some request ↔ task.Returned ∧ task.request = request := by
  unfold Task.served Task.Returned
  split
  · rename_i text rest
    simp [rest]
  · rename_i other
    constructor
    · rintro ⟨⟩
    · rintro ⟨⟨text,rest⟩,-⟩
      exact absurd rest (other text)

section
variable {Files : Type} {disk : ConfigDisk Files}

/-- The calls that have returned were served one after the other. -/
structure Sound (disk : ConfigDisk Files) (initial : Config) (s : Site Files) (order : List Request) (value : Config) : Prop where
  stages : ∀ task ∈ s.tasks, Stage task
  ordered : order.Perm (s.tasks.filterMap Task.served)
  reads : Reads disk s.files value
  served : Served initial order value
  trackingID : ∀ task ∈ s.tasks, ∀ id text, task.request = .getAnonymousTrackingId id → task.rest = .done (.ok text) →
    text = some value.trackingID ∧ len value.trackingID = 21

theorem readConfig_kept (disk : ConfigDisk Files) (files : Files) : (answer disk files .readConfig).1 = files := by
  apply Program.run_world (fun w c reads => disk.kept w c reads)
  unfold readConfig
  cases getConfigFilePath disk.userHomeDir with
  | error e => trivial
  | ok filePath =>
    refine ⟨rfl,?_⟩
    intro reply
    rcases reply with e | bytes
    · simp only
      split_ifs <;> trivial
    · simp only
      split <;> trivial

/-- What was written is read back. -/
theorem reads_writeConfig {files : Files} {value : Config}
    (wrote : (answer disk files (.writeConfig value)).2 = .ok none) :
    Reads disk (answer disk files (.writeConfig value)).1 value := by
  simp only [answer,writeConfig,Reads,readConfig] at wrote ⊢
  cases path : getConfigFilePath disk.userHomeDir with
  | error e => simp [path] at wrote
  | ok filePath =>
    simp only [path,Program.run_call] at wrote ⊢
    rcases made : disk.answer files (.mkdirAll (beforeLast '/' filePath)) with ⟨directory,_ | e⟩
    · simp only [made,Program.run_call] at wrote ⊢
      rcases opened : disk.answer directory (.openFile filePath) with ⟨emptied,_ | e⟩
      · simp only [opened,Program.run_call,Program.run_pure] at wrote ⊢
        have done : (disk.answer emptied (.writeFile filePath (encodeIndent (config.encode value)))).2 = none := by
          simpa using wrote
        rw [disk.written emptied _ _ done]
        simp [decodeStream_encodeIndent config_inverse.rereads]
      · simp [opened] at wrote
    · simp [made] at wrote

theorem set_split {tasks : List Task} {i : Nat} {task : Task} (found : tasks[i]? = some task) :
    ∃ front back, tasks = front ++ task :: back ∧ ∀ next, tasks.set i next = front ++ next :: back := by
  obtain ⟨short,there⟩ := List.getElem?_eq_some_iff.mp found
  refine ⟨tasks.take i,tasks.drop (i+1),?_,?_⟩
  · rw [← there,List.getElem_cons_drop,List.take_append_drop]
  · intro next
    rw [List.set_eq_take_append_cons_drop,if_pos short]

/-- A call that has not returned yet goes on. -/
theorem Sound.moves {initial value : Config} {order : List Request} {files : Files} {front back : List Task} {request : Request}
    {rest next : Update} (sound : Sound disk initial ⟨files,front ++ ⟨request,rest⟩ :: back⟩ order value)
    (running : (⟨request,rest⟩ : Task).served = none) (stage : Stage ⟨request,next⟩)
    (runs : (⟨request,next⟩ : Task).served = none) (others : Files) (reads : Reads disk others value) :
    Sound disk initial ⟨others,front ++ ⟨request,next⟩ :: back⟩ order value where
  stages task member := by
    rcases List.mem_append.mp member with early | here
    · exact sound.stages task (List.mem_append_left _ early)
    · rcases List.mem_cons.mp here with rfl | late
      · exact stage
      · exact sound.stages task (List.mem_append_right _ (List.mem_cons_of_mem _ late))
  ordered := by
    have ordered := sound.ordered
    rw [List.filterMap_append,List.filterMap_cons_none running] at ordered
    rw [List.filterMap_append,List.filterMap_cons_none runs]
    exact ordered
  reads := reads
  served := sound.served
  trackingID task member id text wanted rest := by
    rcases List.mem_append.mp member with early | here
    · exact sound.trackingID task (List.mem_append_left _ early) id text wanted rest
    · rcases List.mem_cons.mp here with rfl | late
      · have returned : (⟨request,next⟩ : Task).served = some request := Task.served_iff.mpr ⟨⟨text,rest⟩,rfl⟩
        cases runs.symm.trans returned
      · exact sound.trackingID task (List.mem_append_right _ (List.mem_cons_of_mem _ late)) id text wanted rest

/-- A call returns, and has left what it leaves where no other comes in between. -/
theorem Sound.returns {initial value : Config} {order : List Request} {files : Files} {front back : List Task} {request : Request}
    {rest : Update} (sound : Sound disk initial ⟨files,front ++ ⟨request,rest⟩ :: back⟩ order value)
    (running : (⟨request,rest⟩ : Task).served = none)
    (spares : request = .getTheme → (∃ theme, .changeTheme theme ∈ order) → value.theme ≠ "") (others : Files)
    (reads : Reads disk others (request.left value)) :
    Sound disk initial ⟨others,front ++ ⟨request,.done (.ok (request.returned (request.left value)))⟩ :: back⟩
      (order ++ [request]) (request.left value) where
  stages task member := by
    rcases List.mem_append.mp member with early | here
    · exact sound.stages task (List.mem_append_left _ early)
    · rcases List.mem_cons.mp here with rfl | late
      · exact .returned request _
      · exact sound.stages task (List.mem_append_right _ (List.mem_cons_of_mem _ late))
  ordered := by
    have ordered := sound.ordered
    rw [List.filterMap_append,List.filterMap_cons_none running] at ordered
    have returned : (⟨request,.done (.ok (request.returned (request.left value)))⟩ : Task).served = some request := rfl
    rw [List.filterMap_append,List.filterMap_cons_some returned]
    exact (List.perm_append_singleton request order).trans ((ordered.cons request).trans List.perm_middle.symm)
  reads := reads
  served := sound.served.serve spares
  trackingID task member id text wanted rest := by
    have earlier : text = some value.trackingID ∧ len value.trackingID = 21 →
        text = some (request.left value).trackingID ∧ len (request.left value).trackingID = 21 := by
      rintro ⟨same,sized⟩
      rw [trackingID_left request sized]
      exact ⟨same,sized⟩
    rcases List.mem_append.mp member with early | here
    · exact earlier (sound.trackingID task (List.mem_append_left _ early) id text wanted rest)
    · rcases List.mem_cons.mp here with rfl | late
      · obtain rfl : request = .getAnonymousTrackingId id := wanted
        refine ⟨?_,len_trackingID_left id value⟩
        cases rest
        rfl
      · exact earlier (sound.trackingID task (List.mem_append_right _ (List.mem_cons_of_mem _ late)) id text wanted rest)

/-- A call has failed, or all that have returned were served. -/
def Inv (disk : ConfigDisk Files) (initial : Config) (s : Site Files) : Prop :=
  (∃ task ∈ s.tasks, task.Failed) ∨ ∃ order value, Sound disk initial s order value

theorem Sound.read {initial value : Config} {order : List Request} {files : Files} {front back : List Task} {request : Request}
    (sound : Sound disk initial ⟨files,front ++ ⟨request,request.program⟩ :: back⟩ order value) :
    ∃ order value, Sound disk initial
      ⟨(answer disk files .readConfig).1
      ,front ++ ⟨request,wasRead request.change request.returned (answer disk files .readConfig).2⟩ :: back⟩ order value := by
  have reads : (answer disk files .readConfig).2 = .ok (.ok value) := sound.reads
  have running : (⟨request,request.program⟩ : Task).served = none := by
    rw [program_eq]
    rfl
  rw [readConfig_kept,reads]
  cases change : request.change value with
  | none =>
    have left : request.left value = value := by rw [Request.left,change,Option.getD_none]
    have ends : wasRead request.change request.returned (.ok (.ok value)) =
        .done (.ok (request.returned (request.left value))) := by
      rw [left]
      simp only [wasRead,resume,Program.pure_bind,change]
      rfl
    have spares : request = .getTheme → (∃ theme, .changeTheme theme ∈ order) → value.theme ≠ "" := by
      rintro rfl _ empty
      simp [Request.change,withSomeTheme,empty] at change
    have kept : Reads disk files (request.left value) := by
      rw [left]
      exact sound.reads
    rw [ends]
    exact ⟨_,_,sound.returns running spares files kept⟩
  | some changed =>
    have pending : wasRead request.change request.returned (.ok (.ok value)) =
        .call (.writeConfig changed) (wrote request.returned changed) := by
      simp only [wasRead,resume,Program.pure_bind,change]
    rw [pending]
    exact ⟨order,value,sound.moves running (.pending request changed) rfl files sound.reads⟩

theorem Sound.write {initial value : Config} {order : List Request} {files : Files} {front back : List Task} {request : Request}
    {changed : Config}
    (sound : Sound disk initial ⟨files,front ++ ⟨request,.call (.writeConfig changed) (wrote request.returned changed)⟩ :: back⟩
      order value)
    (current : changed = request.left value)
    (spares : request = .getTheme → (∃ theme, .changeTheme theme ∈ order) → value.theme ≠ "") :
    Inv disk initial
      ⟨(answer disk files (.writeConfig changed)).1
      ,front ++ ⟨request,wrote request.returned changed (answer disk files (.writeConfig changed)).2⟩ :: back⟩ := by
  cases reply : (answer disk files (.writeConfig changed)).2 with
  | error why => exact .inl ⟨⟨request,.stop why⟩,List.mem_append_right _ List.mem_cons_self,.inr ⟨why,rfl⟩⟩
  | ok err =>
    cases err with
    | some e => exact .inl ⟨⟨request,.done (.error e)⟩,List.mem_append_right _ List.mem_cons_self,.inl ⟨e,rfl⟩⟩
    | none =>
      have reads := reads_writeConfig reply
      subst current
      exact .inr ⟨_,_,sound.returns rfl spares _ reads⟩

/-- A step that keeps the condition serves what it ends, or fails. -/
theorem keeps (initial : Config) (s : Site Files) (e : Event) (inv : Inv disk initial s) (good : Good disk s e) :
    Inv disk initial (step disk s e).1 := by
  cases e with
  | start request =>
    rcases inv with ⟨task,member,failed⟩ | ⟨order,value,sound⟩
    · exact .inl ⟨task,List.mem_append_left _ member,failed⟩
    · have runs : (⟨request,request.program⟩ : Task).served = none := by
        rw [program_eq]
        rfl
      refine .inr ⟨order,value,?_,?_,sound.reads,sound.served,?_⟩
      · intro task member
        rcases List.mem_append.mp member with old | new
        · exact sound.stages task old
        · obtain rfl := List.mem_singleton.mp new
          exact .fresh request
      · show order.Perm ((s.tasks ++ [(⟨request,request.program⟩ : Task)]).filterMap Task.served)
        rw [List.filterMap_append,List.filterMap_cons_none runs,List.filterMap_nil,List.append_nil]
        exact sound.ordered
      · intro task member id text wanted rest
        rcases List.mem_append.mp member with old | new
        · exact sound.trackingID task old id text wanted rest
        · obtain rfl := List.mem_singleton.mp new
          cases runs.symm.trans (Task.served_iff.mpr ⟨⟨text,rest⟩,rfl⟩)
  | call i =>
    rcases found : s.tasks[i]? with _ | ⟨request,a | why | ⟨c,next⟩⟩
    · simpa [step,found] using inv
    · simpa [step,found] using inv
    · simpa [step,found] using inv
    · obtain ⟨front,back,tasks,set⟩ := set_split found
      have stepped : (step disk s (.call i)).1 =
          ⟨(answer disk s.files c).1,front ++ ⟨request,next (answer disk s.files c).2⟩ :: back⟩ := by
        rw [← set]
        simp only [step,found]
      rw [stepped]
      rcases inv with ⟨task,member,failed⟩ | ⟨order,value,sound⟩
      · rw [tasks] at member
        refine .inl ⟨task,?_,failed⟩
        rcases List.mem_append.mp member with early | here
        · exact List.mem_append_left _ early
        · rcases List.mem_cons.mp here with rfl | late
          · rcases failed with ⟨_,⟨⟩⟩ | ⟨_,⟨⟩⟩
          · exact List.mem_append_right _ (List.mem_cons_of_mem _ late)
      · have inside := sound.stages _ (List.mem_of_getElem? found)
        obtain ⟨files,_⟩ := s
        obtain rfl : _ = front ++ ⟨request,.call c next⟩ :: back := tasks
        generalize same : (⟨request,.call c next⟩ : Task) = task at inside
        cases inside with
        | fresh r =>
          rw [program_eq] at same
          cases same
          have program : (⟨request,.call .readConfig (wasRead request.change request.returned)⟩ : Task) =
              ⟨request,request.program⟩ := by
            rw [program_eq]
            rfl
          rw [program] at sound
          exact .inr sound.read
        | pending r changed =>
          cases same
          obtain ⟨current,spares⟩ := good request changed _ found value sound.reads
          apply sound.write current
          rintro isGet ⟨theme,earlier⟩
          apply spares isGet
          obtain ⟨task,member,served⟩ := List.mem_filterMap.mp (sound.ordered.mem_iff.mp earlier)
          obtain ⟨returned,wanted⟩ := Task.served_iff.mp served
          exact ⟨task,member,returned,theme,wanted⟩
        | returned r text => cases same

/-- No change is lost: once all calls have returned without error, the file has the theme
    of a changeTheme, the last five of the projects, and the tracking id that every call
    returned. -/
theorem updates_kept (disk : ConfigDisk Files) (files : Files) (initial : Config) (events : List Event)
    (reads : Reads disk files initial) (good : Meets (step disk) (Good disk) ⟨files,[]⟩ events)
    (returned : ∀ task ∈ (run (step disk) ⟨files,[]⟩ events).1.tasks, task.Returned)
    (few : (projectsOf initial).length ≤ 5 ∨
      ∃ projectName, .addProject projectName ∈ (run (step disk) ⟨files,[]⟩ events).1.requests) :
    ∃ final, Reads disk (run (step disk) ⟨files,[]⟩ events).1.files final ∧
      Kept initial (run (step disk) ⟨files,[]⟩ events).1 final := by
  have start : Inv disk initial ⟨files,[]⟩ := by
    refine .inr ⟨[],initial,by simp,List.Perm.refl _,reads,⟨?_,rfl⟩,by simp⟩
    rintro ⟨_,⟨⟩⟩
  have inv := (@run_keeps _ _ _ _ (Good disk) (Inv disk initial) (fun _ => True)
    (fun s e inv good => ⟨keeps initial s e inv good,trivial⟩) _ start events good).1
  generalize (run (step disk) ⟨files,[]⟩ events).1 = s at *
  rcases inv with ⟨task,member,failed⟩ | ⟨order,final,sound⟩
  · obtain ⟨text,rest⟩ := returned task member
    rcases failed with ⟨e,other⟩ | ⟨why,other⟩
    · cases rest.symm.trans other
    · cases rest.symm.trans other
  · have all : order.Perm s.requests := by
      have everyone : ∀ tasks : List Task, (∀ task ∈ tasks, task.Returned) →
          tasks.filterMap Task.served = tasks.map Task.request := by
        intro tasks returned
        induction tasks with
        | nil => rfl
        | cons task tasks ih =>
          obtain ⟨here,later⟩ := List.forall_mem_cons.mp returned
          rw [List.filterMap_cons_some (Task.served_iff.mpr ⟨here,rfl⟩),ih later,List.map_cons]
      rw [Site.requests,← everyone s.tasks returned]
      exact sound.ordered
    refine ⟨final,sound.reads,?_,?_,?_⟩
    · rintro ⟨theme,member⟩
      exact all.mem_iff.mp (sound.served.theme ⟨theme,all.mem_iff.mpr member⟩)
    · refine ⟨order.filterMap Request.added,all.filterMap _,?_⟩
      rw [sound.served.projects]
      split_ifs with none
      · have short : (projectsOf initial).length ≤ 5 := by
          rcases few with short | ⟨projectName,member⟩
          · exact short
          · have added := List.mem_filterMap.mpr ⟨_,all.mem_iff.mpr member,(rfl : Request.added (.addProject projectName) = _)⟩
            rw [none] at added
            cases added
        rw [none,List.append_nil,lastFive,Nat.sub_eq_zero_of_le short,List.drop_zero]
      · rfl
    · intro task member id wanted
      obtain ⟨text,rest⟩ := returned task member
      rw [rest,(sound.trackingID task member id text wanted rest).1]

end

/-! ## One file -/

/-- A disk that holds the configuration file, and answers every call. -/
def oneFileAnswer (file : Option (List UInt8)) : (c : OperatingSystem.Call) → Option (List UInt8) × OperatingSystem.Reply c
  | .readFile _ => (file,match file with
    | some bytes => .ok bytes
    | none => .error ⟨true,"no such file or directory"⟩)
  | .openFile _ => (some [],none)
  | .writeFile _ bytes => (some bytes,none)
  | .getwd => (file,.ok "/")
  | .lstat _ | .stat _ => (file,.error ⟨true,"no such file or directory"⟩)
  | .readDir _ => (file,[],none)
  | .openDir _ | .mkdirAll _ | .rename _ _ | .remove _ => (file,none)

def oneFile : ConfigDisk (Option (List UInt8)) where
  answer := oneFileAnswer
  kept file c reads := by cases c <;> first | rfl | cases reads
  userHomeDir := .ok "/home/u"
  written file path bytes _ := rfl

theorem reads_none : Reads oneFile none config.zero := rfl

theorem reads_some (value : Config) : Reads oneFile (some (encodeIndent (config.encode value))) value := by
  simp only [Reads,answer,readConfig,oneFile,getConfigFilePath,Except.map,Program.run_call,oneFileAnswer,
    decodeStream_encodeIndent config_inverse.rereads,id_eq,Program.run_pure]

/-- A theme is changed where there is no file. -/
theorem updates_kept_dark :
    ∃ final, Reads oneFile (run (step oneFile) ⟨none,[]⟩ [.start (.changeTheme "dark"),.call 0,.call 0]).1.files final ∧
      Kept config.zero (run (step oneFile) ⟨none,[]⟩ [.start (.changeTheme "dark"),.call 0,.call 0]).1 final := by
  apply updates_kept oneFile none config.zero _ reads_none
  · refine ⟨trivial,?_,?_,trivial⟩
    · rintro request changed next ⟨⟩
    · rintro request changed next ⟨⟩ value reads
      cases reads
      exact ⟨rfl,by rintro ⟨⟩⟩
  · intro task member
    obtain rfl := List.mem_singleton.mp member
    exact ⟨none,rfl⟩
  · exact .inl (by decide)

/-- A project is added while the theme is changed. -/
theorem project_lost :
    ¬ ∀ (disk : ConfigDisk (Option (List UInt8))) (file : Option (List UInt8)) (initial : Config) (events : List Event),
      Reads disk file initial → (∀ task ∈ (run (step disk) ⟨file,[]⟩ events).1.tasks, task.Returned) →
      ∃ final, Reads disk (run (step disk) ⟨file,[]⟩ events).1.files final ∧
        Kept initial (run (step disk) ⟨file,[]⟩ events).1 final := by
  intro always
  obtain ⟨final,reads,kept⟩ := always oneFile none config.zero
    [.start (.addProject "a"),.start (.changeTheme "dark"),.call 0,.call 1,.call 0,.call 1] reads_none (by
      intro task member
      rcases List.mem_cons.mp member with rfl | last
      · exact ⟨none,rfl⟩
      · obtain rfl := List.mem_singleton.mp last
        exact ⟨none,rfl⟩)
  have dark : Reads oneFile (some (encodeIndent (config.encode { config.zero with theme := "dark" })))
      { config.zero with theme := "dark" } := reads_some _
  obtain rfl : { config.zero with theme := "dark" } = final := by
    have same := dark.symm.trans reads
    exact Except.ok.inj (Except.ok.inj same)
  obtain ⟨added,perm,projects⟩ := kept.projects
  obtain rfl : added = ["a"] := List.perm_singleton.mp perm
  revert projects
  decide

end Zasper.ConfigUpdates
