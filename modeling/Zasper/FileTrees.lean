import Zasper.StatusCodes

/-!
# File trees

Volumes of which is known what the calls that create leave behind: a file that is
opened where there was none, and a directory that is made, are one new entry. Links
are allowed; two places can be one name of one directory. A `Drive` is a tree without
links that is kept in memory.
-/
namespace Zasper.FileTrees
open Zasper.Strings Zasper.Paths Zasper.Programs Zasper.OperatingSystem Zasper.SavedFiles Zasper.Volumes
open Zasper.StatusCodes (IsDirectory)
set_option linter.unusedSimpArgs false

/-! ## What is added -/

section
variable {Files Entry : Type} (vol : Volume Files Entry) (files after : Files)

/-- One entry is added: no place had it, and what was there is as it was. -/
structure Added (entry : Entry) : Prop where
  fresh : ∀ place, vol.entryAt files place ≠ some entry
  made : ∃ place, vol.entryAt after place = some entry
  others : ∀ place, vol.entryAt after place = vol.entryAt files place ∨
    vol.entryAt files place = none ∧ vol.entryAt after place = some entry
  bytes : ∀ place bytes, vol.bytesAt files place = some bytes → vol.bytesAt after place = some bytes

/-- A file is added that is found by the path and can be read. -/
structure FileAdded (path : String) : Prop where
  added : ∃ entry, Added vol files after entry
  found : ∃ info, (vol.answer after (.lstat path)).2 = .ok info ∧ info.isDir = false ∧ info.name = base path
  readable : ∃ bytes, (vol.answer after (.readFile path)).2 = .ok bytes

/-- A directory is added, which is found by the path and by each one that is one with
    it. -/
structure DirectoryAdded (one : Place → Place → Prop) (path : String) (entry : Entry) : Prop where
  added : Added vol files after entry
  here : vol.entryAt after (names path) = some entry
  found : ∀ other, Absolute other → one (names path) (names other) → vol.entryAt after (names other) = some entry ∧
    ∃ info, (vol.answer after (.lstat other)).2 = .ok info ∧ info.isDir = true
  onlyThere : ∀ other info, Absolute other → vol.entryAt after (names other) = some entry →
    (vol.answer after (.lstat other)).2 = .ok info → one (names path) (names other)

end

/-- The directory of a path. -/
def above (path : String) : String := render true (names path).dropLast

theorem names_above {path : String} (absolute : Absolute path) :
    Absolute (above path) ∧ names (above path) = (names path).dropLast := by
  have valid : ∀ n ∈ (names path).dropLast, Name n := fun n member => names_name path n (List.mem_of_mem_dropLast member)
  exact ⟨absolute_render valid (fun member => absolute.noUp (List.mem_of_mem_dropLast member)),names_render true valid⟩

/-- Nothing is reported at the path, and no error but this one. -/
def Missing {Files Entry : Type} (vol : Volume Files Entry) (files : Files) (path : String) : Prop :=
  ∃ e, (vol.answer files (.stat path)).2 = .error e ∧ e.notExist = true

structure FileTree (Files Entry : Type) extends Volume Files Entry where
  /-- The places are one name of one directory, whether or not there is an entry; the
      directories on the way can be searched. -/
  one : Files → Place → Place → Prop
  one_self : ∀ files place, one files place place
  openFile_made : ∀ files path, Missing toVolume files path → (answer files (.openFile path)).2 = none →
    FileAdded toVolume files (answer files (.openFile path)).1 path
  /-- What was just created may be written, as far as that goes. -/
  writeFile_made : ∀ files path bytes, Missing toVolume files path → (answer files (.openFile path)).2 = none →
    FileAdded toVolume files (answer (answer files (.openFile path)).1 (.writeFile path bytes)).1 path
  openFile_failed : ∀ files path, Missing toVolume files path → (answer files (.openFile path)).2 ≠ none →
    entryAt (answer files (.openFile path)).1 = entryAt files
  /-- A file that cannot be created is not created by writing it either. -/
  writeFile_failed : ∀ files path bytes, Missing toVolume files path → (answer files (.openFile path)).2 ≠ none →
    entryAt (answer (answer files (.openFile path)).1 (.writeFile path bytes)).1 = entryAt files
  mkdirAll_one : ∀ files path, Absolute path → ¬ IsDirectory toVolume files path → IsDirectory toVolume files (above path) →
    (answer files (.mkdirAll path)).2 = none →
    ∃ entry, DirectoryAdded toVolume files (answer files (.mkdirAll path)).1 (one files) path entry
  /-- Directories that are missing above the path are made as well. -/
  mkdirAll_more : ∀ files path, Absolute path → ¬ IsDirectory toVolume files path → ¬ IsDirectory toVolume files (above path) →
    (answer files (.mkdirAll path)).2 = none →
    ∃ entry, entryAt files (names (above path)) = none ∧ entryAt files (names path) = none ∧
      entryAt (answer files (.mkdirAll path)).1 (names (above path)) = some entry ∧
      entryAt (answer files (.mkdirAll path)).1 (names path) ≠ some entry
  mkdirAll_kept : ∀ files path, Absolute path → IsDirectory toVolume files (above path) →
    (answer files (.mkdirAll path)).2 ≠ none → entryAt (answer files (.mkdirAll path)).1 = entryAt files

/-! ## Drives -/

inductive Node where
  | file (bytes : List UInt8)
  | directory
deriving DecidableEq

/-- A tree of files without links. -/
@[ext] structure Drive where
  nodes : Place → Option Node
  root : nodes [] = some .directory
  closed : ∀ place n, nodes (place ++ [n]) ≠ none → nodes place = some .directory

section
variable (d : Drive) (place : Place)

/-- A file can be there: its directory exists, and no directory has its place. -/
def Drive.Fits : Prop := place ≠ [] ∧ d.nodes place.dropLast = some .directory ∧ d.nodes place ≠ some .directory

instance : Decidable (d.Fits place) := inferInstanceAs (Decidable (_ ∧ _ ∧ _))

/-- A file lies on the way to the place. -/
def Drive.blocked : Bool := place.inits.any (fun way => d.nodes way ≠ none ∧ d.nodes way ≠ some .directory)

/-- No file is at the place or on the way to it. -/
def Drive.Clear : Prop := ∀ way ∈ place.inits, d.nodes way = none ∨ d.nodes way = some .directory

instance : Decidable (d.Clear place) := inferInstanceAs (Decidable (∀ way ∈ place.inits, _))

variable {d place}

def Drive.put (fits : d.Fits place) (bytes : List UInt8) : Drive where
  nodes := Function.update d.nodes place (some (.file bytes))
  root := by rw [Function.update_of_ne (Ne.symm fits.1),d.root]
  closed way n there := by
    have other : way ≠ place → Function.update d.nodes place (some (.file bytes)) way = d.nodes way :=
      fun different => Function.update_of_ne different ..
    by_cases here : way ++ [n] = place
    · have parent : place.dropLast = way := by rw [← here,List.dropLast_concat]
      have different : way ≠ place := by rintro rfl; simp at here
      rw [other different,← parent]
      exact fits.2.1
    · rw [Function.update_of_ne here] at there
      have directory := d.closed way n there
      have different : way ≠ place := by rintro rfl; exact fits.2.2 directory
      rw [other different,directory]

def Drive.make (d : Drive) (place : Place) : Drive where
  nodes way := if way <+: place then some .directory else d.nodes way
  root := if_pos List.nil_prefix
  closed way n there := by
    by_cases above : way <+: place
    · exact if_pos above
    · have below : ¬ way ++ [n] <+: place := fun starts => above ((List.prefix_append way [n]).trans starts)
      rw [if_neg below] at there
      rw [if_neg above,d.closed way n there]

theorem dropLast_ne {place : Place} (given : place ≠ []) : place.dropLast ≠ place := by
  intro same
  have length := congrArg List.length same
  have some := List.length_pos_of_ne_nil given
  rw [List.length_dropLast] at length
  omega

theorem Drive.put_put (fits : d.Fits place) (bytes other : List UInt8) (again : (d.put fits bytes).Fits place) :
    (d.put fits bytes).put again other = d.put fits other := by
  ext1
  exact Function.update_idem ..

theorem Drive.fits_put (fits : d.Fits place) (bytes : List UInt8) : (d.put fits bytes).Fits place := by
  refine ⟨fits.1,?_,by simp [Drive.put]⟩
  exact (Function.update_of_ne (dropLast_ne fits.1) ..).trans fits.2.1

end

def nodeInfo (path : String) : Node → FileInfo
  | .file bytes => ⟨base path,false,Int64.ofNat bytes.length,"2025-01-01T00:00:00Z"⟩
  | .directory => ⟨base path,true,4096,"2025-01-01T00:00:00Z"⟩

def driveStat (cwd : String) (d : Drive) (path : String) : Except OsError FileInfo :=
  if path = "" then .error ⟨true,"no such file or directory"⟩
  else
    match d.nodes (names (absPath cwd path)) with
    | some node => .ok (nodeInfo path node)
    | none =>
      if d.blocked (names (absPath cwd path)) then .error ⟨false,"not a directory"⟩
      else .error ⟨true,"no such file or directory"⟩

def driveWrite (cwd : String) (d : Drive) (path : String) (bytes : List UInt8) : Drive × Option OsError :=
  if fits : path ≠ "" ∧ d.Fits (names (absPath cwd path)) then (d.put fits.2 bytes,none)
  else (d,some ⟨false,"no such file or directory"⟩)

def driveAnswer (cwd : String) (d : Drive) : (c : Call) → Drive × Reply c
  | .getwd => (d,.ok cwd)
  | .lstat path | .stat path => (d,driveStat cwd d path)
  | .readFile path => (d,match d.nodes (names (absPath cwd path)) with
    | some (.file bytes) => .ok bytes
    | _ => .error ⟨false,"no such file or directory"⟩)
  | .writeFile path bytes => driveWrite cwd d path bytes
  | .openFile path => driveWrite cwd d path []
  | .openDir _ => (d,none)
  | .readDir _ => (d,([],none))
  | .mkdirAll path =>
    if path ≠ "" ∧ d.Clear (names (absPath cwd path)) then (d.make (names (absPath cwd path)),none)
    else (d,some ⟨false,"not a directory"⟩)
  | .rename _ _ | .remove _ => (d,some ⟨false,"operation not permitted"⟩)

def driveBytes (d : Drive) (place : Place) : Option (List UInt8) :=
  match d.nodes place with
  | some (.file bytes) => some bytes
  | _ => none

section
variable {cwd : String} {d : Drive} {path : String}

theorem driveStat_error {e : OsError} (failed : driveStat cwd d path = .error e) :
    path = "" ∨ d.nodes (names (absPath cwd path)) = none := by
  by_cases empty : path = ""
  · exact .inl empty
  · rw [driveStat,if_neg empty] at failed
    cases node : d.nodes (names (absPath cwd path)) with
    | none => exact .inr rfl
    | some n =>
      rw [node] at failed
      cases failed

theorem driveWrite_ok {bytes : List UInt8} (written : (driveWrite cwd d path bytes).2 = none) :
    ∃ fits : path ≠ "" ∧ d.Fits (names (absPath cwd path)), driveWrite cwd d path bytes = (d.put fits.2 bytes,none) := by
  by_cases fits : path ≠ "" ∧ d.Fits (names (absPath cwd path))
  · exact ⟨fits,dif_pos fits⟩
  · rw [driveWrite,dif_neg fits] at written
    cases written

theorem driveWrite_failed {bytes : List UInt8} (failed : (driveWrite cwd d path bytes).2 ≠ none) (other : List UInt8) :
    driveWrite cwd d path other = (d,some ⟨false,"no such file or directory"⟩) := by
  by_cases fits : path ≠ "" ∧ d.Fits (names (absPath cwd path))
  · rw [driveWrite,dif_pos fits] at failed
    exact absurd rfl failed
  · exact dif_neg fits

end

/-- A drive as a volume; its entries are told apart by their places. -/
def driveVolume (cwd : String) (rooted : isAbs cwd = true) : Volume Drive Place where
  answer := driveAnswer cwd
  kept d c reads := by cases c <;> first | rfl | cases reads
  cwd := cwd
  rooted := rooted
  getwd_eq _ := rfl
  lstat_empty _ := ⟨_,rfl⟩
  entryAt d place := (d.nodes place).map (fun _ => place)
  bytesAt := driveBytes
  leads _ place other := other = place
  lstat_entry d path info absolute found := by
    have here := absPath_of_absolute absolute cwd
    cases node : d.nodes (names path) with
    | some n => rfl
    | none =>
      have nothing : driveStat cwd d path = .ok info := found
      rw [driveStat,if_neg absolute.ne_empty,here,node] at nothing
      dsimp only at nothing
      split_ifs at nothing
  readFile_bytes d path bytes absolute read := by
    have here := absPath_of_absolute absolute cwd
    dsimp only [driveAnswer] at read
    rw [here] at read
    unfold driveBytes
    cases node : d.nodes (names path) with
    | none => rw [node] at read; cases read
    | some n =>
      rw [node] at read
      cases n with
      | file bytes' => simpa using read
      | directory => cases read
  writeFile_written d path bytes place written leads := by
    obtain ⟨fits,put⟩ := driveWrite_ok written
    obtain rfl : place = names (absPath cwd path) := leads
    change driveBytes (driveWrite cwd d path bytes).1 _ = _
    rw [put]
    simp [driveBytes,Drive.put]
  writeFile_others d path bytes place written leads := by
    obtain ⟨fits,put⟩ := driveWrite_ok written
    have other : place ≠ names (absPath cwd path) := leads
    change driveBytes (driveWrite cwd d path bytes).1 _ = _
    rw [put]
    simp [driveBytes,Drive.put,Function.update_of_ne other]
  remove_empty _ := by simp [driveAnswer]
  remove_gone _ _ _ removed := by simp [driveAnswer] at removed
  remove_failed _ _ _ := rfl
  rename_empty _ _ _ renamed := by simp [driveAnswer] at renamed
  rename_failed _ _ _ _ := rfl
  rename_same _ _ _ _ _ _ := rfl
  rename_moved _ _ _ _ _ renamed := by simp [driveAnswer] at renamed
  rename_within _ _ _ _ _ renamed := by simp [driveAnswer] at renamed
  mkdirAll_empty _ := by simp [driveAnswer]
  mkdirAll_made d path absolute made := by
    have here := absPath_of_absolute absolute cwd
    dsimp only [driveAnswer] at made ⊢
    split_ifs at made ⊢ with clear
    simp [Drive.make,here]
  mkdirAll_failed d path absolute failed := by
    dsimp only [driveAnswer] at failed ⊢
    split_ifs at failed ⊢ with clear
    · exact absurd rfl failed
    · rfl

section
variable {cwd : String} {rooted : isAbs cwd = true} {d : Drive} {path : String}

theorem isDirectory_iff (absolute : Absolute path) :
    IsDirectory (driveVolume cwd rooted) d path ↔ d.nodes (names path) = some .directory := by
  have here := absPath_of_absolute absolute cwd
  have stat : ((driveVolume cwd rooted).answer d (.stat path)).2 = driveStat cwd d path := rfl
  rw [IsDirectory,stat,driveStat,if_neg absolute.ne_empty,here]
  cases node : d.nodes (names path) with
  | none =>
    dsimp only
    split_ifs <;> simp
  | some n => cases n <;> simp [nodeInfo]

theorem free_of_missing (missing : Missing (driveVolume cwd rooted) d path) (given : path ≠ "") :
    d.nodes (names (absPath cwd path)) = none := by
  obtain ⟨e,failed,-⟩ := missing
  exact (driveStat_error failed).resolve_left given

/-- A drive with a node at one more place has one more entry. -/
theorem added_node {after : Drive} {place : Place} (free : d.nodes place = none) (there : after.nodes place ≠ none)
    (others : ∀ other, other ≠ place → after.nodes other = d.nodes other) : Added (driveVolume cwd rooted) d after place := by
  obtain ⟨node,there⟩ := Option.ne_none_iff_exists'.mp there
  constructor
  · intro other had
    obtain ⟨n,node,rfl⟩ := Option.map_eq_some_iff.mp had
    rw [free] at node
    cases node
  · exact ⟨place,by simp [driveVolume,there]⟩
  · intro other
    by_cases same : other = place
    · subst same
      exact .inr ⟨by simp [driveVolume,free],by simp [driveVolume,there]⟩
    · exact .inl (by simp [driveVolume,others other same])
  · intro other old had
    have different : other ≠ place := by
      rintro rfl
      simp [driveVolume,driveBytes,free] at had
    simpa [driveVolume,driveBytes,others other different] using had

theorem fileAdded_put (given : path ≠ "") (free : d.nodes (names (absPath cwd path)) = none)
    (fits : d.Fits (names (absPath cwd path))) (bytes : List UInt8) :
    FileAdded (driveVolume cwd rooted) d (d.put fits bytes) path := by
  have there : (d.put fits bytes).nodes (names (absPath cwd path)) = some (.file bytes) := by simp [Drive.put]
  constructor
  · exact ⟨_,added_node free (by simp [there]) (fun other different => Function.update_of_ne different ..)⟩
  · refine ⟨nodeInfo path (.file bytes),?_,rfl,rfl⟩
    simp [driveVolume,driveAnswer,driveStat,given,there]
  · exact ⟨bytes,by simp [driveVolume,driveAnswer,there]⟩

/-- Everything above a directory is one. -/
theorem Drive.directory_above {place way : Place} (directory : d.nodes place = some .directory) (starts : way <+: place) :
    d.nodes way = some .directory := by
  obtain ⟨rest,rfl⟩ := starts
  induction rest using List.reverseRecOn with
  | nil => simpa using directory
  | append_singleton rest n ih =>
    rw [← List.append_assoc] at directory
    exact ih (d.closed _ n (by rw [directory]; simp only [ne_eq,reduceCtorEq,not_false_iff]))

/-- Below a regular file nothing is reported missing. -/
theorem driveStat_below_file {place : Place} {bytes : List UInt8} {n : List Char} (absolute : Absolute path)
    (file : d.nodes place = some (.file bytes)) (below : names path = place ++ [n]) :
    driveStat cwd d path = .error ⟨false,"not a directory"⟩ := by
  have here := absPath_of_absolute absolute cwd
  have nothing : d.nodes (names path) = none := by
    by_contra there
    rw [below] at there
    have directory := d.closed place n there
    rw [file] at directory
    cases directory
  have blocked : d.blocked (names path) = true := by
    refine List.any_eq_true.mpr ⟨place,(List.mem_inits _ _).mpr ?_,by simp [file]⟩
    rw [below]
    exact List.prefix_append ..
  rw [driveStat,if_neg absolute.ne_empty,here,nothing]
  simp [blocked]

theorem mkdirAll_ok (absolute : Absolute path) (made : (driveAnswer cwd d (.mkdirAll path)).2 = none) :
    d.Clear (names path) ∧ driveAnswer cwd d (.mkdirAll path) = (d.make (names path),none) := by
  have here := absPath_of_absolute absolute cwd
  dsimp only [driveAnswer] at made ⊢
  rw [here] at made ⊢
  split_ifs at made ⊢ with clear
  exact ⟨clear.2,rfl⟩

/-- Where the directory above exists, nothing but the directory is made. -/
theorem Drive.make_others {place way : Place} (parent : d.nodes place.dropLast = some .directory) (other : way ≠ place) :
    (d.make place).nodes way = d.nodes way := by
  by_cases starts : way <+: place
  · have shorter : way <+: place.dropLast := by
      obtain ⟨rest,rfl⟩ := starts
      have given : rest ≠ [] := by rintro rfl; simp at other
      rw [List.dropLast_append_of_ne_nil given]
      exact List.prefix_append ..
    rw [Drive.directory_above parent shorter]
    exact if_pos starts
  · exact if_neg starts

theorem directoryAdded_make (free : d.nodes (names path) = none)
    (parent : d.nodes (names path).dropLast = some .directory) :
    DirectoryAdded (driveVolume cwd rooted) d (d.make (names path)) (· = ·) path (names path) := by
  have there : (d.make (names path)).nodes (names path) = some .directory := if_pos List.prefix_rfl
  constructor
  · exact added_node free (by simp [there]) (fun other different => Drive.make_others parent different)
  · simp [driveVolume,there]
  · intro other otherAbsolute same
    have here := absPath_of_absolute otherAbsolute cwd
    refine ⟨by simp [driveVolume,← same,there],nodeInfo other .directory,?_,rfl⟩
    simp [driveVolume,driveAnswer,driveStat,otherAbsolute.ne_empty,here,← same,there]
  · intro other info _ had _
    obtain ⟨n,-,same⟩ := Option.map_eq_some_iff.mp had
    exact same.symm

end

/-- A drive as a file tree: without links, each place is one with itself only. -/
def driveTree (cwd : String) (rooted : isAbs cwd = true) : FileTree Drive Place where
  toVolume := driveVolume cwd rooted
  one _ place other := place = other
  one_self _ _ := rfl
  openFile_made d path missing opened := by
    obtain ⟨fits,put⟩ := driveWrite_ok opened
    change FileAdded _ d (driveWrite cwd d path []).1 path
    rw [put]
    exact fileAdded_put fits.1 (free_of_missing missing fits.1) fits.2 []
  writeFile_made d path bytes missing opened := by
    obtain ⟨fits,put⟩ := driveWrite_ok opened
    change FileAdded _ d (driveWrite cwd (driveWrite cwd d path []).1 path bytes).1 path
    have again := Drive.fits_put fits.2 []
    rw [put,driveWrite,dif_pos ⟨fits.1,again⟩,Drive.put_put]
    exact fileAdded_put fits.1 (free_of_missing missing fits.1) fits.2 bytes
  openFile_failed d path _ failed := by
    have kept := driveWrite_failed failed []
    exact congrArg (fun r : Drive × Option OsError => (driveVolume cwd rooted).entryAt r.1) kept
  writeFile_failed d path bytes _ failed := by
    have kept := driveWrite_failed failed []
    have again := driveWrite_failed failed bytes
    change (driveVolume cwd rooted).entryAt (driveWrite cwd (driveWrite cwd d path []).1 path bytes).1 = _
    rw [kept,again]
  mkdirAll_one d path absolute other parent made := by
    obtain ⟨clear,made⟩ := mkdirAll_ok absolute made
    have above := names_above absolute
    rw [isDirectory_iff absolute] at other
    rw [isDirectory_iff above.1,above.2] at parent
    have free := (clear (names path) ((List.mem_inits _ _).mpr List.prefix_rfl)).resolve_right other
    refine ⟨names path,?_⟩
    change DirectoryAdded _ d (driveAnswer cwd d (.mkdirAll path)).1 _ path _
    rw [made]
    exact directoryAdded_make free parent
  mkdirAll_more d path absolute other orphan made := by
    obtain ⟨clear,made⟩ := mkdirAll_ok absolute made
    have above := names_above absolute
    rw [isDirectory_iff absolute] at other
    rw [isDirectory_iff above.1,above.2] at orphan
    have starts : (names path).dropLast <+: names path := List.dropLast_prefix _
    have free := (clear (names path) ((List.mem_inits _ _).mpr List.prefix_rfl)).resolve_right other
    have freeAbove := (clear (names path).dropLast ((List.mem_inits _ _).mpr starts)).resolve_right orphan
    have given : names path ≠ [] := by
      intro none
      rw [none,d.root] at free
      cases free
    change ∃ entry, _ ∧ _ ∧ (driveVolume cwd rooted).entryAt (driveAnswer cwd d (.mkdirAll path)).1 _ = _ ∧
      (driveVolume cwd rooted).entryAt (driveAnswer cwd d (.mkdirAll path)).1 _ ≠ _
    rw [made,above.2]
    refine ⟨(names path).dropLast,by simp [driveVolume,freeAbove],by simp [driveVolume,free],?_,?_⟩
    · simp [driveVolume,Drive.make,starts]
    · simpa [driveVolume,Drive.make] using Ne.symm (dropLast_ne given)
  mkdirAll_kept d path absolute _ failed := by
    change (driveAnswer cwd d (.mkdirAll path)).2 ≠ none at failed
    change (driveVolume cwd rooted).entryAt (driveAnswer cwd d (.mkdirAll path)).1 = _
    dsimp only [driveAnswer] at failed ⊢
    split_ifs at failed ⊢ with clear
    · exact absurd rfl failed
    · rfl

theorem driveTree_stat {cwd : String} (rooted : isAbs cwd = true) (d : Drive) (path : String) :
    ((driveTree cwd rooted).answer d (.stat path)).2 = driveStat cwd d path := rfl

end Zasper.FileTrees
