import Zasper.DirectoryOrder
import Zasper.Walks

/-!
# The search for files

`GetFileSuggestions` walks the directory of the project and collects the files whose names
contain the query. `agrees_iff` compares what it answers with what listing the directories
one after the other reaches: a notebook is suggested as a file, and what is left out is
what has the text `.git` anywhere in its absolute path.
-/
namespace Zasper.FileSearch
open Zasper.Strings Zasper.Paths Zasper.Programs Zasper.OperatingSystem Zasper.ContentManager Zasper.Volumes Zasper.Walks
open Zasper.ListedPaths (entryModel entryPath run_getDirectoryModel)
open Zasper.OpenNotebook (safePath)
set_option linter.unusedSimpArgs false

/-! ## The handler -/

/-- What two lists of names have after their common start. -/
def afterCommon : List (List Char) → List (List Char) → List (List Char) × List (List Char)
  | b :: base, t :: targ => if t = b then afterCommon base targ else (b :: base,t :: targ)
  | base, targ => (base,targ)

/-- `filepath.Rel`: the way to a path, as far as it can be told from the paths alone. -/
def rel (basepath targpath : String) : Except String String :=
  let base := clean basepath
  let targ := clean targpath
  let failed := .error ("Rel: can't make " ++ targpath ++ " relative to " ++ basepath)
  if targ = base then .ok "."
  else if isAbs base ≠ isAbs targ then failed
  else
    let (up,down) := afterCommon (names base) (names targ)
    if up.head? = some dotdot then failed
    else .ok (render false (up.map (fun _ => dotdot) ++ down))

structure FileCache where
  data : List EntryModel
  /-- In nanoseconds. -/
  timestamp : Int

def cacheExpiry : Int := 5 * 60 * 1000000000

def getRelativePath (home targetPath : String) : Except String String := rel home targetPath

/-- The body of an answer. -/
inductive SearchBody where
  | text (message : String)
  | suggestions (list : List EntryModel)

structure SearchResponse where
  status : Nat
  body : SearchBody

section
variable (goString : FileInfo → String) (home query : String)

/-- The error of the relative path is not looked at. -/
def suggestion (path : String) (info : FileInfo) : EntryModel :=
  { name := info.name
    contentType := "file"
    path := match getRelativePath home path with
      | .ok relPath => relPath
      | .error _ => ""
    lastModified := goString info
    created := ""
    size := 0 }

/-- Directories are skipped, but walked. -/
def collect (path : String) (info : FileInfo) (suggestions : List EntryModel) : List EntryModel :=
  if info.isDir || contains path ".git" then suggestions
  else if contains info.name query then suggestions ++ [suggestion goString home path info]
  else suggestions

/-- Searches, and stores what is found at the time `stored`. -/
def searchFiles (fuel : Nat) (cache : String → Option FileCache) (stored : Int) :
    Os ((String → Option FileCache) × SearchResponse) := do
  match ← filepathWalk (reporting (collect goString home query)) fuel home [] with
  | (some err,_) => pure (cache,⟨500,.text ("Error walking the directory tree: " ++ err.text)⟩)
  | (none,suggestions) => pure (Function.update cache query (some ⟨suggestions,stored⟩),⟨200,.suggestions suggestions⟩)

/-- `goString` is the text of a time in the syntax of Go; `now` is when the cache is looked
    into. -/
def getFileSuggestions (fuel : Nat) (cache : String → Option FileCache) (now stored : Int) :
    Os ((String → Option FileCache) × SearchResponse) :=
  if query = "" then pure (cache,⟨400,.text "Query parameter is required"⟩)
  else
    match cache query with
    | some cacheData =>
      if now - cacheData.timestamp < cacheExpiry then pure (cache,⟨200,.suggestions cacheData.data⟩)
      else searchFiles goString home query fuel cache stored
    | none => searchFiles goString home query fuel cache stored

end

example : rel "/home/u" "/home/u/src/a.txt" = .ok "src/a.txt" := by decide
example : rel "/home/u/a" "/home/u/b" = .ok "../b" := by decide

/-! ## What is listed -/

section
variable {Files : Type} (host : Host Files) (files : Files) (home query : String)

/-- The directory at a path is listed with the entry. -/
def Lists (path : String) (e : EntryModel) : Prop :=
  ∃ model list, ((getDirectoryModel home path).run host.answer files).2 = .ok (.ok model) ∧ model.content = .entries list ∧
    e ∈ list

/-- The entries that are reached from `.` by listing each directory that is listed. -/
inductive Listed : EntryModel → Prop where
  | start {e : EntryModel} (lists : Lists host files home "." e) : Listed e
  | entry {d e : EntryModel} (listed : Listed d) (directory : d.contentType = "directory")
      (lists : Lists host files home d.path e) : Listed e

/-- A listed entry is to be suggested: it is no directory, its name contains the query and
    its path has no component `.git`. -/
structure Wanted (e : EntryModel) : Prop where
  listed : Listed host files home e
  file : e.contentType ≠ "directory"
  named : contains e.name query = true
  visible : ".git".toList ∉ names e.path

/-- The two have the same name, path and content type. -/
def Same (s e : EntryModel) : Prop := s.name = e.name ∧ s.path = e.path ∧ s.contentType = e.contentType

/-- With enough fuel the search answers with the entries that are to be suggested. -/
def Agrees (goString : FileInfo → String) (cache : String → Option FileCache) (now stored : Int) : Prop :=
  ∃ suggestions, (∃ enough, ∀ fuel, enough ≤ fuel → ∃ cache',
      ((getFileSuggestions goString home query fuel cache now stored).run host.answer files).2 =
        .ok (cache',⟨200,.suggestions suggestions⟩)) ∧
    (∀ s ∈ suggestions, ∃ e, Wanted host files home query e ∧ Same s e) ∧
    ∀ e, Wanted host files home query e → ∃ s ∈ suggestions, Same s e

/-- A file in the tree under `HomeDir` whose name contains the query; `info` is that of
    `HomeDir`. -/
structure Hit (info : FileInfo) (path : String) (i : FileInfo) : Prop where
  visits : Visits host.toFileSystem files (home,info) (path,i)
  file : i.isDir = false
  named : contains i.name query = true

/-- The path relative to `HomeDir` has no component `.git`. -/
def Visible (path : String) : Prop := ".git".toList ∉ (names path).drop (root host.cwd home).length

instance (path : String) : Decidable (Visible host home path) := inferInstanceAs (Decidable (¬ _))

/-- The directory is opened and read with the entries: `HomeDir`, also where it is a link to
    a directory, or a directory that is found in one that is read. -/
inductive Read : String → List EntryName → Prop where
  | start {vs : List EntryName} (opened : (host.answer files (.openDir home)).2 = none)
      (read : (host.answer files (.readDir home)).2 = (vs,none)) : Read home vs
  | entry {path : String} {vs ws : List EntryName} {v : EntryName} {i : FileInfo} (above : Read path vs) (inside : v ∈ vs)
      (found : (host.answer files (.lstat (join [path,v.name]))).2 = .ok i) (directory : i.isDir = true)
      (opened : (host.answer files (.openDir (join [path,v.name]))).2 = none)
      (read : (host.answer files (.readDir (join [path,v.name]))).2 = (ws,none)) : Read (join [path,v.name]) ws

/-- The entry of a directory is a file whose name contains the query. -/
structure Matches (path : String) (v : EntryName) (i : FileInfo) : Prop where
  found : (host.answer files (.lstat (join [path,v.name]))).2 = .ok i
  file : i.isDir = false
  named : contains i.name query = true

/-- `HomeDir` can be walked. Where it is a directory that begins its own absolute path, no
    hit is a notebook or has the text `.git` in its absolute path, but for those with a
    component `.git`. Where it is none, the walk finds nothing but what has the text `.git`
    in its absolute path; and if it begins its own absolute path, the directories that are
    read from there have no entry that matches, but for those with a component `.git`. -/
def Fits : Prop := ∃ info, (host.answer files (.lstat home)).2 = .ok info ∧ Walkable host.toFileSystem files home info ∧
  ((Resolves host.cwd home ∧ info.isDir = true) ∧
      (∀ path i, Hit host files home query info path i → Visible host home path →
        ext (base path) ≠ ".ipynb" ∧ contains path ".git" = false) ∨
    ¬ (Resolves host.cwd home ∧ info.isDir = true) ∧
      (∀ path i, Hit host files home query info path i → contains path ".git" = true) ∧
      (Resolves host.cwd home → ∀ path vs, Read host files home path vs → ∀ v ∈ vs, ∀ i,
        Matches host files query path v i → ¬ Visible host home (join [path,v.name])))

end

/-! ## Relative paths -/

/-- The path relative to the directory, for what lies below it. -/
def within (home path : String) : String := render false ((names path).drop (names home).length)

theorem afterCommon_append (base rest : List (List Char)) : afterCommon base (base ++ rest) = ([],rest) := by
  induction base with
  | nil => cases rest <;> rfl
  | cons b base ih => simpa [afterCommon] using ih

theorem rel_below {home path : String} (absoluteHome : Absolute home) (absolute : Absolute path) (below : Below home path) :
    rel home path = .ok (within home path) := by
  obtain ⟨rest,split⟩ := below
  have dropped : (names path).drop (names home).length = rest := by rw [← split,List.drop_left]
  rw [rel,absoluteHome.shortest,absolute.shortest,within,dropped]
  by_cases same : path = home
  · have none : rest = [] := by
      rw [same] at split
      simpa using split
    simp [same,none]
    rfl
  · simp [same,absoluteHome.rooted,absolute.rooted,← split,afterCommon_append]

/-- The names of the relative path. -/
theorem names_within (home path : String) : names (within home path) = (names path).drop (names home).length :=
  names_render false (fun n inside => names_name path n (List.mem_of_mem_drop inside))

/-- Different paths below a directory have different relative paths. -/
theorem within_injective {home path other : String} (absolute : Absolute path) (otherAbsolute : Absolute other)
    (below : Below home path) (otherBelow : Below home other) (same : within home path = within home other) : path = other := by
  obtain ⟨rest,split⟩ := below
  obtain ⟨more,otherSplit⟩ := otherBelow
  have dropped := congrArg names same
  rw [names_within,names_within,← split,← otherSplit,List.drop_left,List.drop_left] at dropped
  exact absolute_ext absolute otherAbsolute (by rw [← split,← otherSplit,dropped])

/-- The path that is listed for an entry is its relative path. -/
theorem entryPath_within {home path : String} (absolute : Absolute path) (below : Below home path) (v : EntryName) :
    entryPath (within home path) v.name = within home (join [path,v.name]) := by
  obtain ⟨rest,split⟩ := below
  have valid : ∀ n ∈ names path ++ [v.name.toList], Name n := by
    intro n inside
    rcases List.mem_append.mp inside with above | own
    · exact names_name path n above
    · exact List.mem_singleton.mp own ▸ v.single.1
  have joined : names (join [path,v.name]) = names home ++ (rest ++ [v.name.toList]) := by
    rw [v.join_eq absolute,names_render true valid,← split,List.append_assoc]
  have dropped : within home path = render false rest := by rw [within,← split,List.drop_left]
  have dropped' : within home (join [path,v.name]) = render false (rest ++ [v.name.toList]) := by
    rw [within,joined,List.drop_left]
  rw [dropped,dropped',entryPath]
  by_cases none : rest = []
  · subst none
    have dotText : render false [] = "." := by decide
    rw [if_pos dotText]
    simp [render,joinNames]
  · have other : render false rest ≠ "." := by
      intro same
      have dotNames : names "." = [] := by decide
      have text := congrArg names same
      rw [names_render false (fun n inside => valid n (by simp [← split,inside])),dotNames] at text
      exact none text
    rw [if_neg other,← String.toList_inj]
    simp [render,none,joinNames_append none (List.cons_ne_nil v.name.toList []),joinNames]

/-- What is looked up for the relative path. -/
theorem safePath_within {cwd home path : String} (rooted : isAbs cwd = true) (resolves : Resolves cwd home)
    (whole : absPath cwd home = home) (absolute : Absolute path) (below : Below home path) :
    safePath cwd home (within home path) = path := by
  have relative : isAbs (within home path) = false :=
    isAbs_render false (fun n inside => names_name path n (List.mem_of_mem_drop inside))
  have noUp : dotdot ∉ names (within home path) := by
    rw [names_within]
    exact fun up => absolute.noUp (List.mem_of_mem_drop up)
  obtain ⟨rest,split⟩ := below
  rw [safePath_below rooted resolves relative noUp,names_within,root,whole,← split,List.drop_left,split,absolute.rendered]

/-- A path that begins its own absolute path is that path, or empty. -/
theorem absPath_of_resolves {cwd home : String} (rooted : isAbs cwd = true) (resolves : Resolves cwd home)
    (given : home ≠ "") : absPath cwd home = home := by
  have absolute : isAbs home = true := isAbs_home rooted resolves given
  have starts : hasPrefix (absPath cwd home) home = true := resolves
  rw [abs_of_absolute absolute] at starts ⊢
  exact clean_of_hasPrefix absolute starts

theorem within_home (home : String) : within home home = "." := by
  have none : (names home).drop (names home).length = [] := List.drop_length
  rw [within,none]
  decide

/-! ## Directories that are read -/

section
variable {Files : Type} {host : Host Files} {files : Files} {home query : String} {info : FileInfo}

theorem absPath_of_found (resolves : Resolves host.cwd home) (found : (host.answer files (.lstat home)).2 = .ok info) :
    absPath host.cwd home = home := by
  refine absPath_of_resolves host.rooted resolves ?_
  rintro rfl
  obtain ⟨why,none⟩ := host.lstat_empty files
  rw [none] at found
  cases found

/-- The listing of a directory by its relative path. -/
theorem lists_within (resolves : Resolves host.cwd home) (whole : absPath host.cwd home = home) {path : String}
    (absolute : Absolute path) (below : Below home path) {i : FileInfo} (there : (host.answer files (.lstat path)).2 = .ok i)
    (e : EntryModel) :
    Lists host files home (within home path) e ↔ (host.answer files (.openDir path)).2 = none ∧
      ∃ vs, (host.answer files (.readDir path)).2 = (vs,none) ∧ ∃ v ∈ vs, e = entryModel host files path (within home path) v := by
  have looked := safePath_within host.rooted resolves whole absolute below
  rw [Lists,run_getDirectoryModel,looked]
  simp only [there,Except.ok.injEq,exists_eq',true_and,List.mem_map,eq_comm]

/-- What is read is found, and lies below the start. -/
theorem read_below (absolute : Absolute home) (found : (host.answer files (.lstat home)).2 = .ok info) {path : String}
    {vs : List EntryName} (reads : Read host files home path vs) :
    Absolute path ∧ Below home path ∧ ∃ i, (host.answer files (.lstat path)).2 = .ok i := by
  induction reads with
  | start => exact ⟨absolute,List.prefix_rfl,info,found⟩
  | @entry path vs ws v i _ _ there _ _ _ ih =>
    obtain ⟨above,below,-⟩ := ih
    exact ⟨absolute_join above _,below.trans (below_join above (by simpa using v.noUp)),i,there⟩

theorem Read.opened {path : String} {vs : List EntryName} (reads : Read host files home path vs) :
    (host.answer files (.openDir path)).2 = none ∧ (host.answer files (.readDir path)).2 = (vs,none) := by
  cases reads with
  | start opened read => exact ⟨opened,read⟩
  | entry _ _ _ _ opened read => exact ⟨opened,read⟩

/-- The entries of a directory that is read are listed. -/
theorem listed_of_read (resolves : Resolves host.cwd home) (found : (host.answer files (.lstat home)).2 = .ok info)
    {path : String} {vs : List EntryName} (reads : Read host files home path vs) {v : EntryName} (inside : v ∈ vs) :
    Listed host files home (entryModel host files path (within home path) v) := by
  have whole := absPath_of_found resolves found
  have absolute : Absolute home := whole ▸ absolute_absPath host.rooted home
  have lists {path : String} {vs : List EntryName} (reads : Read host files home path vs) {v : EntryName} (inside : v ∈ vs) :
      Lists host files home (within home path) (entryModel host files path (within home path) v) := by
    obtain ⟨pathAbsolute,below,i,there⟩ := read_below absolute found reads
    exact (lists_within resolves whole pathAbsolute below there _).mpr ⟨reads.opened.1,vs,reads.opened.2,v,inside,rfl⟩
  induction reads generalizing v with
  | start opened read =>
    have here := lists (.start opened read) inside
    rw [within_home] at here ⊢
    exact .start here
  | @entry path vs ws w i above among there directory opened read ih =>
    obtain ⟨pathAbsolute,below,-⟩ := read_below absolute found above
    have made := @DirectoryOrder.entryModel_found _ host files (within home path) _ _ _ there
    rw [entryPath_within pathAbsolute below] at made
    have here := lists (.entry above among there directory opened read) inside
    refine .entry (ih among) ?_ ?_
    · rw [made]
      simp [directory]
    · rw [made]
      exact here

/-- What is listed is an entry of a directory that is read. -/
theorem read_of_listed (resolves : Resolves host.cwd home) (found : (host.answer files (.lstat home)).2 = .ok info)
    {e : EntryModel} (listed : Listed host files home e) :
    ∃ path vs v, Read host files home path vs ∧ v ∈ vs ∧ e = entryModel host files path (within home path) v := by
  have whole := absPath_of_found resolves found
  have absolute : Absolute home := whole ▸ absolute_absPath host.rooted home
  induction listed with
  | start lists =>
    rw [← within_home home,lists_within resolves whole absolute List.prefix_rfl found] at lists
    obtain ⟨opened,vs,read,v,inside,made⟩ := lists
    exact ⟨home,vs,v,.start opened read,inside,made⟩
  | @entry d e _ isDirectory lists ih =>
    obtain ⟨path,vs,v,reads,inside,rfl⟩ := ih
    obtain ⟨pathAbsolute,below,-⟩ := read_below absolute found reads
    cases there : (host.answer files (.lstat (join [path,v.name]))).2 with
    | error why =>
      have missing : (entryModel host files path (within home path) v).contentType = "" := by
        unfold entryModel getFileModel
        rw [Program.run_call,there]
        rfl
      rw [missing] at isDirectory
      exact absurd isDirectory (by decide)
    | ok i =>
      rw [DirectoryOrder.entryModel_found there,entryPath_within pathAbsolute below] at isDirectory lists
      have directory : i.isDir = true := by
        by_contra file
        simp only [file,Bool.false_eq_true,↓reduceIte] at isDirectory
        split_ifs at isDirectory <;> simp at isDirectory
      rw [lists_within resolves whole (absolute_join pathAbsolute _)
        (below.trans (below_join pathAbsolute (by simpa using v.noUp))) there] at lists
      obtain ⟨opened,ws,read,w,among,made⟩ := lists
      exact ⟨_,ws,w,.entry reads inside there directory opened read,among,made⟩

end

/-! ## A directory that is found by its absolute path -/

section
variable {Files : Type} {host : Host Files} {files : Files} {home query : String} {info : FileInfo}

/-- `HomeDir` is a directory that begins its own absolute path, and everything below it can
    be listed. -/
structure Straight (host : Host Files) (files : Files) (home : String) (info : FileInfo) : Prop where
  found : (host.answer files (.lstat home)).2 = .ok info
  walkable : Walkable host.toFileSystem files home info
  resolves : Resolves host.cwd home
  directory : info.isDir = true

theorem Straight.whole (straight : Straight host files home info) : absPath host.cwd home = home :=
  absPath_of_found straight.resolves straight.found

theorem Straight.absolute (straight : Straight host files home info) : Absolute home := by
  rw [← straight.whole]
  exact absolute_absPath host.rooted home

/-- What is visited is found, and lies below the start. -/
theorem visits_below (absolute : Absolute home) (found : (host.answer files (.lstat home)).2 = .ok info) {step : Step}
    (visits : Visits host.toFileSystem files (home,info) step) :
    Absolute step.1 ∧ Below home step.1 ∧ (host.answer files (.lstat step.1)).2 = .ok step.2 := by
  induction visits with
  | refl => exact ⟨absolute,List.prefix_rfl,found⟩
  | @tail step next _ enters ih =>
    obtain ⟨above,below,-⟩ := ih
    obtain ⟨-,vs,v,-,-,joined,there⟩ := enters
    rw [joined] at there ⊢
    refine ⟨absolute_join above _,below.trans ?_,joined ▸ there⟩
    exact below_join above (by simpa using v.noUp)

/-- What can be walked from the start can be walked from each place. -/
theorem walkable_of_visits (walkable : Walkable host.toFileSystem files home info) {step : Step}
    (visits : Visits host.toFileSystem files (home,info) step) : Walkable host.toFileSystem files step.1 step.2 := by
  induction visits with
  | refl => exact walkable
  | @tail step next _ enters ih =>
    obtain ⟨directory,vs,v,read,inside,joined,there⟩ := enters
    rcases ih with plain | ⟨-,-,readToo,-,entries⟩
    · rw [directory] at plain
      cases plain
    · obtain ⟨rfl,-⟩ := Prod.mk.inj (read.symm.trans readToo)
      rw [joined] at there ⊢
      exact entries v inside _ there

/-- The walk visits the directories that are read. -/
theorem Straight.visits_of_read (straight : Straight host files home info) {path : String} {vs : List EntryName}
    (reads : Read host files home path vs) :
    ∃ i, Visits host.toFileSystem files (home,info) (path,i) ∧ i.isDir = true := by
  induction reads with
  | start => exact ⟨info,.refl,straight.directory⟩
  | @entry path vs ws v i above inside there directory _ _ ih =>
    obtain ⟨dir,visits,isDir⟩ := ih
    exact ⟨i,visits.tail ⟨isDir,vs,v,above.opened.2,inside,rfl,there⟩,directory⟩

theorem Straight.opened (straight : Straight host files home info) {step : Step}
    (visits : Visits host.toFileSystem files (home,info) step) (directory : step.2.isDir = true) :
    (host.answer files (.openDir step.1)).2 = none := by
  rcases walkable_of_visits straight.walkable visits with plain | ⟨-,opened,-,-,-⟩
  · rw [directory] at plain
    cases plain
  · exact opened

/-- The directories that the walk visits are read. -/
theorem Straight.read_of_visits (straight : Straight host files home info) {step : Step}
    (visits : Visits host.toFileSystem files (home,info) step) (directory : step.2.isDir = true) {vs : List EntryName}
    (read : (host.answer files (.readDir step.1)).2 = (vs,none)) : Read host files home step.1 vs := by
  induction visits generalizing vs with
  | refl => exact .start (straight.opened .refl directory) read
  | @tail step next visits enters ih =>
    have opened := straight.opened (visits.tail enters) directory
    obtain ⟨isDir,ws,v,above,inside,joined,there⟩ := enters
    rw [joined] at there opened read ⊢
    exact .entry (ih isDir above) inside there directory opened read

/-- What the listing tells of a file. -/
structure Told (home path : String) (i : FileInfo) (e : EntryModel) : Prop where
  named : e.name = i.name
  located : e.path = within home path
  typed : e.contentType = if ext (base path) = ".ipynb" then "notebook" else "file"

/-- The base of the path of an entry. -/
theorem base_entry {path : String} (absolute : Absolute path) (v : EntryName) : base (join [path,v.name]) = v.name := by
  have joined : names (join [path,v.name]) = names path ++ [v.name.toList] := by
    simpa [v.names_eq] using @names_join_home path absolute [v.name] (by simpa using v.noUp)
  rw [base_join (n := v.name.toList) (by simp [joined]),String.ofList_toList]

/-- A file below the start is an entry of a directory that is visited. -/
theorem Straight.of_file (straight : Straight host files home info) {path : String} {i : FileInfo}
    (visits : Visits host.toFileSystem files (home,info) (path,i)) (file : i.isDir = false) :
    ∃ above dir vs v, Visits host.toFileSystem files (home,info) (above,dir) ∧ dir.isDir = true ∧
      (host.answer files (.readDir above)).2 = (vs,none) ∧ v ∈ vs ∧ path = join [above,v.name] ∧
      (host.answer files (.lstat path)).2 = .ok i := by
  rcases visits.cases_tail with here | ⟨⟨above,dir⟩,visits,directory,vs,v,read,inside,joined,there⟩
  · have same : i = info := (Prod.mk.inj here).2
    rw [same,straight.directory] at file
    cases file
  · exact ⟨above,dir,vs,v,visits,directory,read,inside,joined,there⟩

theorem told_of_file {above : String} {v : EntryName} {i : FileInfo} (absolute : Absolute above) (below : Below home above)
    (there : (host.answer files (.lstat (join [above,v.name]))).2 = .ok i) (file : i.isDir = false) :
    Told home (join [above,v.name]) i (entryModel host files above (within home above) v) := by
  rw [DirectoryOrder.entryModel_found there,entryPath_within absolute below]
  exact ⟨rfl,rfl,by simp [file,base_entry absolute]⟩

/-- An entry that is to be suggested matches. -/
theorem match_of_wanted (resolves : Resolves host.cwd home) (found : (host.answer files (.lstat home)).2 = .ok info)
    (given : query ≠ "") {e : EntryModel} (wanted : Wanted host files home query e) :
    ∃ path vs v i, Read host files home path vs ∧ v ∈ vs ∧ Matches host files query path v i ∧
      Visible host home (join [path,v.name]) ∧ Told home (join [path,v.name]) i e := by
  have whole := absPath_of_found resolves found
  have absolute : Absolute home := whole ▸ absolute_absPath host.rooted home
  obtain ⟨path,vs,v,reads,inside,rfl⟩ := read_of_listed resolves found wanted.listed
  obtain ⟨pathAbsolute,below,-⟩ := read_below absolute found reads
  cases there : (host.answer files (.lstat (join [path,v.name]))).2 with
  | error why =>
    have missing : (entryModel host files path (within home path) v).name = "" := by
      unfold entryModel getFileModel
      rw [Program.run_call,there]
      rfl
    have named := wanted.named
    rw [missing,contains_iff] at named
    exact absurd (String.toList_inj.mp (List.infix_nil.mp named)) given
  | ok i =>
    have file : i.isDir = false := by
      by_contra isDir
      have kind := wanted.file
      rw [DirectoryOrder.entryModel_found there] at kind
      simp [isDir] at kind
    have told := told_of_file pathAbsolute below there file
    refine ⟨path,vs,v,i,reads,inside,⟨there,file,told.named ▸ wanted.named⟩,?_,told⟩
    have visible := wanted.visible
    rw [told.located,names_within] at visible
    rw [Visible,root,whole]
    exact visible

/-- What matches is listed as an entry that is to be suggested. -/
theorem wanted_of_match (resolves : Resolves host.cwd home) (found : (host.answer files (.lstat home)).2 = .ok info)
    {path : String} {vs : List EntryName} (reads : Read host files home path vs) {v : EntryName} (inside : v ∈ vs)
    {i : FileInfo} (matching : Matches host files query path v i) (visible : Visible host home (join [path,v.name])) :
    ∃ e, Wanted host files home query e ∧ Told home (join [path,v.name]) i e := by
  have whole := absPath_of_found resolves found
  obtain ⟨pathAbsolute,below,-⟩ := read_below (whole ▸ absolute_absPath host.rooted home) found reads
  have told := told_of_file pathAbsolute below matching.found matching.file
  refine ⟨_,⟨listed_of_read resolves found reads inside,?_,told.named ▸ matching.named,?_⟩,told⟩
  · rw [told.typed]
    split_ifs <;> decide
  · rw [Visible,root,whole] at visible
    rw [told.located,names_within]
    exact visible

theorem hit_of_wanted (straight : Straight host files home info) (given : query ≠ "") {e : EntryModel}
    (wanted : Wanted host files home query e) :
    ∃ path i, Hit host files home query info path i ∧ Visible host home path ∧ Told home path i e := by
  obtain ⟨above,vs,v,i,reads,inside,matching,visible,told⟩ := match_of_wanted straight.resolves straight.found given wanted
  obtain ⟨dir,visits,directory⟩ := straight.visits_of_read reads
  have deeper : Visits host.toFileSystem files (home,info) (join [above,v.name],i) :=
    visits.tail ⟨directory,vs,v,reads.opened.2,inside,rfl,matching.found⟩
  exact ⟨_,i,⟨deeper,matching.file,matching.named⟩,visible,told⟩

theorem wanted_of_hit (straight : Straight host files home info) {path : String} {i : FileInfo}
    (hit : Hit host files home query info path i) (visible : Visible host home path) :
    ∃ e, Wanted host files home query e ∧ Told home path i e := by
  obtain ⟨above,dir,vs,v,visits,directory,read,inside,rfl,there⟩ := straight.of_file hit.visits hit.file
  exact wanted_of_match straight.resolves straight.found (straight.read_of_visits visits directory read) inside
    ⟨there,hit.file,hit.named⟩ visible

/-! ## What is suggested -/

/-- What is suggested for a file, where it is suggested. -/
def picked (goString : FileInfo → String) (home query path : String) (i : FileInfo) : List EntryModel :=
  if i.isDir || contains path ".git" || !contains i.name query then [] else [suggestion goString home path i]

theorem collect_eq (goString : FileInfo → String) (home query path : String) (i : FileInfo) (s : List EntryModel) :
    collect goString home query path i s = s ++ picked goString home query path i := by
  unfold collect picked
  cases i.isDir || contains path ".git" <;> cases contains i.name query <;> simp

theorem mem_picked {goString : FileInfo → String} {path : String} {i : FileInfo} {s : EntryModel} :
    s ∈ picked goString home query path i ↔ i.isDir = false ∧ contains i.name query = true ∧ contains path ".git" = false ∧
      s = suggestion goString home path i := by
  unfold picked
  cases i.isDir <;> cases contains path ".git" <;> cases contains i.name query <;> simp

/-- What the search answers with, where everything can be walked. -/
theorem exists_suggestions (goString : FileInfo → String) {cache : String → Option FileCache} (now stored : Int)
    (given : query ≠ "") (uncached : cache query = none) (found : (host.answer files (.lstat home)).2 = .ok info)
    (walkable : Walkable host.toFileSystem files home info) :
    ∃ suggestions, (∀ s, s ∈ suggestions ↔ ∃ path i, Hit host files home query info path i ∧ contains path ".git" = false ∧
        s = suggestion goString home path i) ∧
      ∃ enough, ∀ fuel, enough ≤ fuel → ∃ cache',
        ((getFileSuggestions goString home query fuel cache now stored).run host.answer files).2 =
          .ok (cache',⟨200,.suggestions suggestions⟩) := by
  obtain ⟨suggestions,members,enough,ran⟩ := exists_collected (collect_eq goString home query) found walkable []
  refine ⟨suggestions,?_,enough,?_⟩
  · intro s
    rw [members,or_iff_right List.not_mem_nil]
    constructor
    · rintro ⟨path,i,visits,inside⟩
      obtain ⟨file,named,plain,made⟩ := mem_picked.mp inside
      exact ⟨path,i,⟨visits,file,named⟩,plain,made⟩
    · rintro ⟨path,i,hit,plain,made⟩
      exact ⟨path,i,hit.visits,mem_picked.mpr ⟨hit.file,hit.named,plain,made⟩⟩
  · intro fuel ample
    have result := ran fuel ample
    refine ⟨Function.update cache query (some ⟨suggestions,stored⟩),?_⟩
    rw [getFileSuggestions,if_neg given,uncached]
    dsimp only [searchFiles]
    rw [Program.run_bind,result]
    rfl

/-- Where the search answers with suggestions, everything could be walked. -/
theorem walkable_of_answer {goString : FileInfo → String} {cache cache' : String → Option FileCache} {now stored : Int}
    {fuel : Nat} {suggestions : List EntryModel} (given : query ≠ "") (uncached : cache query = none)
    (answer : ((getFileSuggestions goString home query fuel cache now stored).run host.answer files).2 =
      .ok (cache',⟨200,.suggestions suggestions⟩)) :
    ∃ info, (host.answer files (.lstat home)).2 = .ok info ∧ Walkable host.toFileSystem files home info := by
  rw [getFileSuggestions,if_neg given,uncached] at answer
  dsimp only [searchFiles] at answer
  rw [Program.run_bind] at answer
  rcases ran : (filepathWalk (reporting (collect goString home query)) fuel home []).run host.answer files with
    ⟨after,why | ⟨_ | err,found⟩⟩
  · rw [ran] at answer
    cases answer
  · exact (walkable_iff home []).mp ⟨fuel,found,by rw [ran]⟩
  · rw [ran] at answer
    simp at answer

/-- The search agrees where each hit that is suggested is to be, and the other way round. -/
theorem agrees_iff_hits (goString : FileInfo → String) {cache : String → Option FileCache} (now stored : Int)
    (given : query ≠ "") (uncached : cache query = none) :
    Agrees host files home query goString cache now stored ↔
      ∃ info, (host.answer files (.lstat home)).2 = .ok info ∧ Walkable host.toFileSystem files home info ∧
        (∀ path i, Hit host files home query info path i → contains path ".git" = false →
          ∃ e, Wanted host files home query e ∧ Same (suggestion goString home path i) e) ∧
        ∀ e, Wanted host files home query e → ∃ path i, Hit host files home query info path i ∧
          contains path ".git" = false ∧ Same (suggestion goString home path i) e := by
  constructor
  · rintro ⟨suggestions,⟨enough,answers⟩,right,complete⟩
    obtain ⟨_,answer⟩ := answers enough le_rfl
    obtain ⟨info,found,walkable⟩ := walkable_of_answer given uncached answer
    obtain ⟨others,members,enough',answers'⟩ := exists_suggestions goString now stored given uncached found walkable
    -- with fuel for both, the two answers are one
    obtain ⟨_,first⟩ := answers (max enough enough') (le_max_left _ _)
    obtain ⟨_,second⟩ := answers' (max enough enough') (le_max_right _ _)
    rw [first] at second
    obtain ⟨-,same⟩ := Prod.mk.inj (Except.ok.inj second)
    obtain rfl : suggestions = others := by simpa using same
    refine ⟨info,found,walkable,?_,?_⟩
    · intro path i hit plain
      exact right _ ((members _).mpr ⟨path,i,hit,plain,rfl⟩)
    · intro e wanted
      obtain ⟨s,inside,told⟩ := complete e wanted
      obtain ⟨path,i,hit,plain,rfl⟩ := (members s).mp inside
      exact ⟨path,i,hit,plain,told⟩
  · rintro ⟨info,found,walkable,right,complete⟩
    obtain ⟨suggestions,members,answers⟩ := exists_suggestions goString now stored given uncached found walkable
    refine ⟨suggestions,answers,?_,?_⟩
    · intro s inside
      obtain ⟨path,i,hit,plain,rfl⟩ := (members s).mp inside
      exact right path i hit plain
    · intro e wanted
      obtain ⟨path,i,hit,plain,told⟩ := complete e wanted
      exact ⟨_,(members _).mpr ⟨path,i,hit,plain,rfl⟩,told⟩

/-- A component of a path is part of its text. -/
theorem visible_of_plain {path : String} (plain : contains path ".git" = false) : Visible host home path := by
  intro inside
  have piece : ".git".toList ∈ cutAt '/' path.toList := (List.mem_filter.mp (List.mem_of_mem_drop inside)).1
  have text : contains path ".git" = true := contains_iff.mpr (cutAt_within piece)
  rw [plain] at text
  cases text

theorem Straight.suggestion_path (straight : Straight host files home info) (goString : FileInfo → String) {path : String}
    {i : FileInfo} (hit : Hit host files home query info path i) :
    (suggestion goString home path i).path = within home path := by
  obtain ⟨absolute,below,-⟩ := visits_below straight.absolute straight.found hit.visits
  simp only [suggestion,getRelativePath,rel_below straight.absolute absolute below]

/-- In a directory that is found by its absolute path. -/
theorem straight_agrees (straight : Straight host files home info) (given : query ≠ "") (goString : FileInfo → String) :
    ((∀ path i, Hit host files home query info path i → contains path ".git" = false →
        ∃ e, Wanted host files home query e ∧ Same (suggestion goString home path i) e) ∧
      ∀ e, Wanted host files home query e → ∃ path i, Hit host files home query info path i ∧
        contains path ".git" = false ∧ Same (suggestion goString home path i) e) ↔
      ∀ path i, Hit host files home query info path i → Visible host home path →
        ext (base path) ≠ ".ipynb" ∧ contains path ".git" = false := by
  constructor
  · rintro ⟨-,complete⟩ path i hit visible
    obtain ⟨e,wanted,told⟩ := wanted_of_hit straight hit visible
    obtain ⟨other,j,otherHit,plain,-,located,typed⟩ := complete e wanted
    obtain ⟨absolute,below,-⟩ := visits_below straight.absolute straight.found hit.visits
    obtain ⟨otherAbsolute,otherBelow,-⟩ := visits_below straight.absolute straight.found otherHit.visits
    rw [straight.suggestion_path goString otherHit,told.located] at located
    obtain rfl : other = path := within_injective otherAbsolute absolute otherBelow below located
    refine ⟨fun notebook => ?_,plain⟩
    rw [told.typed,if_pos notebook] at typed
    simp [suggestion] at typed
  · intro fits
    have same {path : String} {i : FileInfo} {e : EntryModel} (hit : Hit host files home query info path i)
        (visible : Visible host home path) (told : Told home path i e) : Same (suggestion goString home path i) e := by
      refine ⟨told.named.symm,?_,?_⟩
      · rw [straight.suggestion_path goString hit,told.located]
      · rw [told.typed,if_neg (fits path i hit visible).1]
        rfl
    refine ⟨?_,?_⟩
    · intro path i hit plain
      obtain ⟨e,wanted,told⟩ := wanted_of_hit straight hit (visible_of_plain plain)
      exact ⟨e,wanted,same hit (visible_of_plain plain) told⟩
    · intro e wanted
      obtain ⟨path,i,hit,visible,told⟩ := hit_of_wanted straight given wanted
      exact ⟨path,i,hit,(fits path i hit visible).2,same hit visible told⟩

/-! ## No such directory -/

/-- No listed path is that of the start. -/
theorem path_ne_dot {path : String} {e : EntryModel} (lists : Lists host files home path e) : e.path ≠ "." := by
  obtain ⟨-,-,vs,-,inside⟩ := (run_getDirectoryModel host home files path e).mp lists
  obtain ⟨v,-,rfl⟩ := List.mem_map.mp inside
  rcases @ListedPaths.entryModel_path _ host files (safePath host.cwd home path) path v with ⟨made,-⟩ | ⟨made,-⟩
  · rw [made,entryPath]
    split_ifs
    · intro same
      exact v.single.1.2.1 (congrArg String.toList same)
    · intro same
      have text := congrArg String.toList same
      have slash : '/' ∈ (path ++ "/" ++ v.name).toList := by simp
      rw [text] at slash
      revert slash
      decide
  · rw [made]
    decide

theorem Listed.path_ne_dot {e : EntryModel} (listed : Listed host files home e) : e.path ≠ "." := by
  cases listed with
  | start lists => exact FileSearch.path_ne_dot lists
  | entry _ _ lists => exact FileSearch.path_ne_dot lists

/-- Where `HomeDir` does not begin its own absolute path, nothing is listed. -/
theorem stray_listed (stray : ¬ Resolves host.cwd home) (e : EntryModel) : ¬ Listed host files home e := by
  intro listed
  induction listed with
  | start lists =>
    obtain ⟨⟨info,found⟩,-⟩ := (run_getDirectoryModel host home files "." _).mp lists
    obtain ⟨why,none⟩ := host.lstat_empty files
    rw [safePath_dot host.rooted stray,none] at found
    cases found
  | entry _ _ _ ih => exact ih

/-- Nothing is to be suggested where nothing that is read matches. -/
theorem nothing_wanted (found : (host.answer files (.lstat home)).2 = .ok info) (given : query ≠ "") :
    (∀ e, ¬ Wanted host files home query e) ↔ (Resolves host.cwd home → ∀ path vs, Read host files home path vs →
      ∀ v ∈ vs, ∀ i, Matches host files query path v i → ¬ Visible host home (join [path,v.name])) := by
  by_cases resolves : Resolves host.cwd home
  · constructor
    · intro none _ path vs reads v inside i matching visible
      obtain ⟨e,wanted,-⟩ := wanted_of_match resolves found reads inside matching visible
      exact none e wanted
    · intro none e wanted
      obtain ⟨path,vs,v,i,reads,inside,matching,visible,-⟩ := match_of_wanted resolves found given wanted
      exact none resolves path vs reads v inside i matching visible
  · exact iff_of_true (fun e wanted => stray_listed resolves e wanted.listed) (fun stray => absurd stray resolves)

/-- Nothing that is suggested is listed. -/
theorem not_same (other : ¬ (Resolves host.cwd home ∧ info.isDir = true)) (goString : FileInfo → String) {path : String}
    {i : FileInfo} (hit : Hit host files home query info path i) {e : EntryModel} (wanted : Wanted host files home query e) :
    ¬ Same (suggestion goString home path i) e := by
  by_cases resolves : Resolves host.cwd home
  · -- only the start is visited
    have file : ¬ info.isDir = true := fun directory => other ⟨resolves,directory⟩
    rcases hit.visits.cases_head with here | ⟨next,⟨directory,-⟩,-⟩
    · rintro ⟨-,located,-⟩
      have same : home = path := (Prod.mk.inj here).1
      have start : (suggestion goString home path i).path = "." := by simp [suggestion,getRelativePath,rel,same]
      rw [start] at located
      exact wanted.listed.path_ne_dot located.symm
    · exact absurd directory file
  · exact absurd wanted.listed (stray_listed resolves e)

end

/-- With nothing cached, the search agrees with the listing if and only if `HomeDir` can be
    walked and, where it is a directory that begins its own absolute path, no hit that is to
    be suggested is a notebook or has `.git` in its path; elsewhere only where there is
    nothing to be found. -/
theorem agrees_iff {Files : Type} (host : Host Files) (files : Files) (home query : String) (goString : FileInfo → String)
    (cache : String → Option FileCache) (now stored : Int) (given : query ≠ "") (uncached : cache query = none) :
    Agrees host files home query goString cache now stored ↔ Fits host files home query := by
  rw [agrees_iff_hits goString now stored given uncached]
  refine exists_congr fun info => and_congr_right fun found => and_congr_right fun walkable => ?_
  by_cases here : Resolves host.cwd home ∧ info.isDir = true
  · have straight : Straight host files home info := ⟨found,walkable,here.1,here.2⟩
    rw [straight_agrees straight given]
    simp [here]
  · simp only [here,false_and,not_false_eq_true,true_and,false_or]
    rw [← nothing_wanted found given]
    constructor
    · rintro ⟨right,complete⟩
      refine ⟨fun path i hit => ?_,fun e wanted => ?_⟩
      · by_contra plain
        obtain ⟨e,wanted,told⟩ := right path i hit (Bool.eq_false_iff.mpr plain)
        exact not_same here goString hit wanted told
      · obtain ⟨path,i,hit,-,told⟩ := complete e wanted
        exact not_same here goString hit wanted told
    · rintro ⟨hidden,none⟩
      refine ⟨fun path i hit plain => ?_,fun e wanted => absurd wanted (none e)⟩
      rw [hidden path i hit] at plain
      cases plain

/-! ## A notebook and a file -/

open Zasper.DirectoryOrder (yields readme analysis)
open Zasper.ListedPaths (versionsHost)

/-- The project of `versionsHost` with the given entries. -/
def project (vs : List EntryName) : Host Unit := yields versionsHost "/home/u" vs

def projectInfo : FileInfo := ⟨"u",true,0,"2025-01-01T00:00:00Z"⟩

theorem project_found (vs : List EntryName) : ((project vs).answer () (.lstat "/home/u")).2 = .ok projectInfo := by
  have name : base "/home/u" = "u" := by decide
  simp [project,yields,versionsHost,ListedPaths.versionsAnswer,name,projectInfo]

theorem project_read (vs : List EntryName) : ((project vs).answer () (.readDir "/home/u")).2 = (vs,none) := by
  simp [project,yields]

/-- The information on an entry of the project, which is no directory. -/
theorem project_entry (vs : List EntryName) (path : String) (given : path ≠ "") (other : path ≠ "/home/u") :
    ((project vs).answer () (.lstat path)).2 = .ok ⟨base path,false,0,"2025-01-01T00:00:00Z"⟩ := by
  simp [project,yields,versionsHost,ListedPaths.versionsAnswer,given,other]

/-- A notebook is suggested as a file. -/
theorem analysis_suggested : ¬ Agrees (project [analysis]) () "/home/u" "b" (·.modTime) (fun _ => none) 0 0 := by
  intro agrees
  obtain ⟨info,found,walkable,right,complete⟩ := (agrees_iff_hits _ 0 0 (by decide) rfl).mp agrees
  obtain rfl : projectInfo = info := Except.ok.inj ((project_found _).symm.trans found)
  have straight : Straight (project [analysis]) () "/home/u" projectInfo := ⟨found,walkable,by decide,rfl⟩
  have path : join ["/home/u",analysis.name] = "/home/u/b.ipynb" := by decide
  have there := project_entry [analysis] "/home/u/b.ipynb" (by decide) (by decide)
  have hit : Hit (project [analysis]) () "/home/u" "b" projectInfo "/home/u/b.ipynb"
      ⟨base "/home/u/b.ipynb",false,0,"2025-01-01T00:00:00Z"⟩ := by
    refine ⟨.single ⟨rfl,_,analysis,project_read _,List.mem_singleton_self _,path.symm,there⟩,rfl,?_⟩
    decide
  obtain ⟨plain,-⟩ := (straight_agrees straight (by decide) (·.modTime)).mp ⟨right,complete⟩ _ _ hit (by decide)
  exact plain (by decide)

/-- A file of another kind is suggested as it is listed. -/
theorem readme_agrees : Agrees (project [readme]) () "/home/u" "a" (·.modTime) (fun _ => none) 0 0 := by
  have path : join ["/home/u",readme.name] = "/home/u/a.txt" := by decide
  have there := project_entry [readme] "/home/u/a.txt" (by decide) (by decide)
  refine (agrees_iff (project [readme]) () "/home/u" "a" (·.modTime) (fun _ => none) 0 0 (by decide) rfl).mpr ?_
  refine ⟨projectInfo,project_found _,?_,.inl ⟨⟨by decide,rfl⟩,fun other i hit _ => ?_⟩⟩
  · refine .directory rfl rfl (project_read _) (fun v inside => ?_) (fun v inside inner found => ?_)
    · rw [List.mem_singleton.mp inside,path]
      exact ⟨_,there⟩
    · rw [List.mem_singleton.mp inside,path] at found ⊢
      obtain rfl := Except.ok.inj (there.symm.trans found)
      exact .file rfl
  · rcases hit.visits.cases_head with here | ⟨next,⟨-,vs,v,read,inside,joined,found⟩,later⟩
    · have file := hit.file
      rw [← (Prod.mk.inj here).2] at file
      cases file
    · obtain ⟨rfl,-⟩ := Prod.mk.inj ((project_read _).symm.trans read)
      rw [List.mem_singleton.mp inside,path] at joined
      rw [joined] at found
      have same := Except.ok.inj (there.symm.trans found)
      rcases later.cases_head with rfl | ⟨-,⟨directory,-⟩,-⟩
      · have here : other = "/home/u/a.txt" := joined
        rw [here]
        decide
      · rw [← same] at directory
        cases directory

end Zasper.FileSearch
