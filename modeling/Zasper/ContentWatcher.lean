import Mathlib.Algebra.Order.BigOperators.Group.List
import Zasper.DirectoryOrder
import Zasper.Walks
import Zasper.Runs

/-!
# The content watcher

The directories that are watched for changes, while files and directories are created,
written and removed. The directories are found once, by a walk that leaves out those in
whose path one of the excluded names stands anywhere. `watches_iff` says which changes
lead to a reload signal: those in `HomeDir` itself, and in directories that have stood
since and were not left out.
-/
namespace Zasper.ContentWatcher
open Zasper.Strings Zasper.Paths Zasper.Programs Zasper.OperatingSystem Zasper.SavedFiles Zasper.Volumes Zasper.Walks Zasper.Runs
set_option linter.unusedSimpArgs false

/-! ## Setting up -/

def excludedDirs : List String :=
  ["node_modules","build",".git",".idea",".vscode","dist","vendor","venv","tmp","temp","cache","logs","test","tests","coverage"]

def shouldExclude (path : String) : Bool := excludedDirs.any (fun excluded => contains path excluded)

/-- The paths that are watched after one more was added; a watcher that refuses a path
    ends the process. -/
def add (path : String) (watched : List String) : List String := watched ++ [path]

/-- An excluded directory is not watched, but walked. -/
def addDir (path : String) (info : FileInfo) (watched : List String) : List String :=
  if info.isDir then
    if shouldExclude path then watched else add path watched
  else watched

def addDirsToWatcher (fuel : Nat) (directory : String) (watched : List String) : Os (Option OsError × List String) :=
  filepathWalk (reporting addDir) fuel directory watched

/-- What `startWatcher` does before it waits for events: the error and the paths that are
    watched. -/
def startWatcher (fuel : Nat) (directory : String) : Os (Option OsError × List String) :=
  addDirsToWatcher fuel directory (add directory [])

/-! ## Events -/

/-- What an event is about; the operations are the bits of a number. -/
structure Op where
  create : Bool
  write : Bool
  remove : Bool
deriving DecidableEq

def reload : String := "reload"

/-- The messages that are sent for an event. -/
def handle (op : Op) : List String :=
  (if op.write then [reload] else []) ++ (if op.create then [reload] else []) ++ (if op.remove then [reload] else [])

/-! ## The tree -/

inductive Kind where
  | file
  | directory
deriving DecidableEq

/-- A name of an entry. -/
def Single (n : List Char) : Prop := Name n ∧ n ≠ dotdot

instance (n : List Char) : Decidable (Single n) := inferInstanceAs (Decidable (_ ∧ _))

/-- What is at each place below `HomeDir`. -/
structure Tree where
  nodes : Place → Option Kind
  /-- Nothing is elsewhere. -/
  places : List Place
  inside : ∀ place, nodes place ≠ none → place ∈ places
  root : nodes [] = some .directory
  closed : ∀ place n, nodes (place ++ [n]) ≠ none → nodes place = some .directory
  single : ∀ place, nodes place ≠ none → ∀ n ∈ place, Single n

inductive Change where
  | create (directory : Place) (name : List Char) (kind : Kind)
  | write (directory : Place) (name : List Char)
  | remove (directory : Place) (name : List Char)

/-- The directory in which something is changed. -/
def Change.directory : Change → Place
  | .create directory _ _ | .write directory _ | .remove directory _ => directory

def Change.op : Change → Op
  | .create .. => ⟨true,false,false⟩
  | .write .. => ⟨false,true,false⟩
  | .remove .. => ⟨false,false,true⟩

/-- The change can be made: what is created is not there yet, only a file is written, and
    a directory that is removed is empty. -/
def Tree.Allows (tree : Tree) : Change → Prop
  | .create directory name _ => tree.nodes directory = some .directory ∧ tree.nodes (directory ++ [name]) = none ∧ Single name
  | .write directory name => tree.nodes (directory ++ [name]) = some .file
  | .remove directory name => tree.nodes (directory ++ [name]) ≠ none ∧
    ∀ place ∈ tree.places, directory ++ [name] <+: place → place ≠ directory ++ [name] → tree.nodes place = none

instance (tree : Tree) (c : Change) : Decidable (tree.Allows c) := by
  cases c <;> unfold Tree.Allows <;> infer_instance

theorem Tree.directory_of_allows {tree : Tree} {c : Change} (allows : tree.Allows c) :
    tree.nodes c.directory = some .directory := by
  cases c with
  | create directory name kind => exact allows.1
  | write directory name => exact tree.closed directory name (by rw [allows]; simp)
  | remove directory name => exact tree.closed directory name allows.1

theorem longer_ne (place : Place) (n : List Char) : place ≠ place ++ [n] := by simp

/-- The tree with one more entry. -/
def Tree.create (tree : Tree) {directory : Place} {name : List Char} (kind : Kind)
    (parent : tree.nodes directory = some .directory) (free : tree.nodes (directory ++ [name]) = none) (valid : Single name) :
    Tree where
  nodes := Function.update tree.nodes (directory ++ [name]) (some kind)
  places := (directory ++ [name]) :: tree.places
  inside place there := by
    by_cases here : place = directory ++ [name]
    · exact here ▸ List.mem_cons_self
    · rw [Function.update_of_ne here] at there
      exact List.mem_cons_of_mem _ (tree.inside place there)
  root := by rw [Function.update_of_ne (by simp),tree.root]
  closed place n there := by
    by_cases here : place ++ [n] = directory ++ [name]
    · obtain ⟨rfl,-⟩ := List.append_inj' here rfl
      rw [Function.update_of_ne (longer_ne _ _),parent]
    · rw [Function.update_of_ne here] at there
      have above := tree.closed place n there
      rw [Function.update_of_ne,above]
      rintro rfl
      rw [free] at above
      cases above
  single place there n member := by
    by_cases here : place = directory ++ [name]
    · rw [here] at member
      rcases List.mem_append.mp member with above | own
      · exact tree.single directory (by rw [parent]; simp) n above
      · exact List.mem_singleton.mp own ▸ valid
    · rw [Function.update_of_ne here] at there
      exact tree.single place there n member

/-- The tree without an entry that has none below it. -/
def Tree.remove (tree : Tree) {directory : Place} {name : List Char}
    (empty : ∀ place ∈ tree.places, directory ++ [name] <+: place → place ≠ directory ++ [name] → tree.nodes place = none) :
    Tree where
  nodes := Function.update tree.nodes (directory ++ [name]) none
  places := tree.places
  inside place there := by
    by_cases here : place = directory ++ [name]
    · simp [here] at there
    · rw [Function.update_of_ne here] at there
      exact tree.inside place there
  root := by rw [Function.update_of_ne (by simp),tree.root]
  closed place n there := by
    by_cases here : place ++ [n] = directory ++ [name]
    · simp [here] at there
    · rw [Function.update_of_ne here] at there
      rw [Function.update_of_ne,tree.closed place n there]
      rintro rfl
      exact there (empty _ (tree.inside _ there) (List.prefix_append ..) (longer_ne _ _).symm)
  single place there n member := by
    by_cases here : place = directory ++ [name]
    · simp [here] at there
    · rw [Function.update_of_ne here] at there
      exact tree.single place there n member

def Tree.after (tree : Tree) : (c : Change) → tree.Allows c → Tree
  | .create _ _ kind, allows => tree.create kind allows.1 allows.2.1 allows.2.2
  | .write _ _, _ => tree
  | .remove _ _, allows => tree.remove allows.2

/-! ## Runs of changes -/

/-- The path of a place as the walk makes it. -/
def pathOf (home : String) (place : Place) : String := place.foldl (fun path n => join [path,String.ofList n]) home

structure State where
  tree : Tree
  watched : List String
  /-- The directories that have stood since the watcher was set up. -/
  standing : Place → Bool

/-- The watch of a directory goes with the directory. -/
def forget (home : String) (s : State) : Change → State
  | .remove directory name =>
    { s with
      watched := s.watched.filter (· ≠ pathOf home (directory ++ [name]))
      standing := Function.update s.standing (directory ++ [name]) false }
  | .create .. | .write .. => s

/-- A watch reports what happens to the entries of its directory. A change that the system
    does not allow is none. -/
def step (home : String) (s : State) (c : Change) : State × List String :=
  if allows : s.tree.Allows c then
    (forget home { s with tree := s.tree.after c allows } c,
      if pathOf home c.directory ∈ s.watched then handle c.op else [])
  else (s,[])

/-- No component of the place is one of the excluded names. -/
def Included (place : Place) : Prop := ∀ n ∈ place, String.ofList n ∉ excludedDirs

instance (place : Place) : Decidable (Included place) := inferInstanceAs (Decidable (∀ n ∈ place, _))

/-- A change in a directory without an excluded component leads to a reload signal. -/
def Seen (home : String) (s : State) (c : Change) : Prop :=
  s.tree.Allows c → Included c.directory → reload ∈ (step home s c).2

/-- Changes are made in `HomeDir` itself, or, where it is no link, in directories that have
    stood since the watcher was set up and in whose path no excluded name stands. -/
def Covered (home : String) (linked : Bool) (s : State) (c : Change) : Prop :=
  s.tree.Allows c → Included c.directory → c.directory = [] ∨
    linked = false ∧ s.standing c.directory = true ∧ shouldExclude (pathOf home c.directory) = false

/-- When the watcher was just set up. -/
def start (tree : Tree) (watched : List String) : State :=
  ⟨tree,watched,fun place => tree.nodes place = some .directory⟩

/-! ## Paths of places -/

theorem pathOf_append (home : String) (place : Place) (n : List Char) :
    pathOf home (place ++ [n]) = join [pathOf home place,String.ofList n] := by simp [pathOf]

/-- The path of a place below `HomeDir`, whose names follow those of `HomeDir`. -/
theorem pathOf_below {home : String} (given : home ≠ "") {place : Place} (single : ∀ n ∈ place, Single n) (some : place ≠ []) :
    pathOf home place ≠ "" ∧ clean (pathOf home place) = pathOf home place ∧ isAbs (pathOf home place) = isAbs home ∧
      names (pathOf home place) = resolve (isAbs home) (names home) ++ place := by
  induction place using List.reverseRecOn with
  | nil => exact absurd rfl some
  | append_singleton place n ih =>
    have own : Single n := single n (by simp)
    have above : ∀ m ∈ place, Single m := fun m inside => single m (by simp [inside])
    have noUp : dotdot ∉ place ++ [n] := fun up => (single _ up).2 rfl
    have start : pathOf home place ≠ "" ∧ isAbs (pathOf home place) = isAbs home ∧
        resolve (isAbs home) (names (pathOf home place) ++ [n]) = resolve (isAbs home) (names home) ++ (place ++ [n]) := by
      by_cases none : place = []
      · subst none
        exact ⟨given,rfl,resolve_append _ _ noUp⟩
      · obtain ⟨some,-,rooted,placed⟩ := ih above none
        refine ⟨some,rooted,?_⟩
        rw [placed,List.append_assoc,resolve_append _ _ noUp,resolve_idem]
    obtain ⟨some,rooted,resolved⟩ := start
    have starts : startsAbs [pathOf home place,String.ofList n] = isAbs home := by simp [startsAbs,some,rooted]
    have cleaned := @clean_join [pathOf home place,String.ofList n] (pathOf home place) (by simp) some
    rw [pathOf_append]
    refine ⟨cleaned.1,cleaned.2,by rw [isAbs_join,starts],?_⟩
    rw [names_join,starts]
    simpa [names_single own.1] using resolved

/-- Places with the same path are the same. -/
theorem pathOf_injective {home : String} (given : home ≠ "") {place other : Place} (single : ∀ n ∈ place, Single n)
    (otherSingle : ∀ n ∈ other, Single n) (same : pathOf home place = pathOf home other) : place = other := by
  -- what lies below is written in its shortest form, and has more names
  have below {ns : Place} (valid : ∀ n ∈ ns, Single n) (start : home = pathOf home ns) : ns = [] := by
    by_contra some
    obtain ⟨-,cleaned,-,placed⟩ := pathOf_below given valid some
    rw [← start] at cleaned placed
    rw [(rendered_of_clean cleaned).1] at placed
    simp [some] at placed
  by_cases first : place = []
  · subst first
    exact (below otherSingle same).symm
  · by_cases second : other = []
    · subst second
      exact below single same.symm
    · obtain ⟨-,-,-,placed⟩ := pathOf_below given single first
      obtain ⟨-,-,-,otherPlaced⟩ := pathOf_below given otherSingle second
      rw [same,otherPlaced] at placed
      exact (List.append_cancel_left placed).symm

/-! ## What is watched -/

/-- `HomeDir` is watched, and what has stood and was not left out. -/
def Watches (home : String) (linked : Bool) (s : State) : Prop := ∀ place : Place, (∀ n ∈ place, Single n) →
  (pathOf home place ∈ s.watched ↔
    place = [] ∨ linked = false ∧ s.standing place = true ∧ shouldExclude (pathOf home place) = false)

theorem reload_sent (c : Change) : reload ∈ handle c.op := by
  cases c <;> simp [handle,Change.op]

/-- A change leads to a signal if and only if its directory is watched. -/
theorem step_messages {home : String} {s : State} {c : Change} (allows : s.tree.Allows c) :
    reload ∈ (step home s c).2 ↔ pathOf home c.directory ∈ s.watched := by
  rw [step,dif_pos allows]
  split_ifs with watched
  · exact iff_of_true (reload_sent c) watched
  · exact iff_of_false List.not_mem_nil watched

theorem seen_iff {home : String} {linked : Bool} {s : State} (watches : Watches home linked s) (c : Change) :
    Seen home s c ↔ Covered home linked s c := by
  refine forall_congr' fun allows => forall_congr' fun _ => ?_
  have there := s.tree.directory_of_allows allows
  have single : ∀ n ∈ c.directory, Single n := s.tree.single _ (by rw [there]; simp)
  rw [step_messages allows,watches c.directory single]

theorem step_watches {home : String} (given : home ≠ "") {linked : Bool} {s : State} (watches : Watches home linked s)
    (c : Change) : Watches home linked (step home s c).1 := by
  by_cases allows : s.tree.Allows c
  · rw [step,dif_pos allows]
    cases c with
    | create directory name kind => exact watches
    | write directory name => exact watches
    | remove directory name =>
      intro place single
      have valid : ∀ n ∈ directory ++ [name], Single n := s.tree.single _ allows.1
      dsimp only [forget]
      by_cases here : place = directory ++ [name]
      · simp [here]
      · have other : pathOf home place ≠ pathOf home (directory ++ [name]) :=
          fun same => here (pathOf_injective given single valid same)
        rw [List.mem_filter,watches place single,Function.update_of_ne here]
        simp [other]
  · rw [step,dif_neg allows]
    exact watches

/-! ## What the walk finds -/

section
variable {Files : Type} (host : Host Files) (files : Files) (home : String) (linked : Bool)

/-- The tree is what the files below `HomeDir` are answered as, where `HomeDir` is a
    directory or a link to one. -/
structure Shows (tree : Tree) : Prop where
  found : ∀ place kind, tree.nodes place = some kind → ∃ info,
    (host.answer files (.lstat (pathOf home place))).2 = .ok info ∧
      (info.isDir = true ↔ kind = .directory ∧ (place = [] → linked = false))
  opened : ∀ place, tree.nodes place = some .directory → (host.answer files (.openDir (pathOf home place))).2 = none
  read : ∀ place, tree.nodes place = some .directory →
    ∃ vs, (host.answer files (.readDir (pathOf home place))).2 = (vs,none) ∧
      ∀ n, (∃ v ∈ vs, v.name.toList = n) ↔ tree.nodes (place ++ [n]) ≠ none

/-- With enough fuel the watcher is set up, with these paths. -/
def SetUp (watched : List String) : Prop :=
  ∃ enough, ∀ fuel, enough ≤ fuel → ((startWatcher fuel home).run host.answer files).2 = .ok (none,watched)

variable {host files home linked} {tree : Tree}

theorem Shows.given (shows : Shows host files home linked tree) : home ≠ "" := by
  rintro rfl
  obtain ⟨info,found,-⟩ := shows.found [] _ tree.root
  obtain ⟨why,none⟩ := host.lstat_empty files
  have same : pathOf "" [] = "" := rfl
  rw [same,none] at found
  cases found

/-- The tree ends at some depth. -/
theorem exists_depth (tree : Tree) : ∃ depth, ∀ place, tree.nodes place ≠ none → place.length ≤ depth := by
  refine ⟨(tree.places.map List.length).sum,fun place there => ?_⟩
  exact List.single_le_sum (by simp) _ (List.mem_map_of_mem (tree.inside place there))

theorem Shows.isDir (shows : Shows host files home linked tree) {place : Place} {kind : Kind} {info : FileInfo}
    (there : tree.nodes place = some kind) (found : (host.answer files (.lstat (pathOf home place))).2 = .ok info) :
    info.isDir = true ↔ kind = .directory ∧ (place = [] → linked = false) := by
  obtain ⟨other,found',isDir⟩ := shows.found place kind there
  obtain rfl : info = other := Except.ok.inj (found.symm.trans found')
  exact isDir

/-- The entries of a directory are in the tree. -/
theorem Shows.entry (shows : Shows host files home linked tree) {place : Place} (directory : tree.nodes place = some .directory)
    {vs : List EntryName} (read : (host.answer files (.readDir (pathOf home place))).2 = (vs,none)) {v : EntryName}
    (inside : v ∈ vs) :
    join [pathOf home place,v.name] = pathOf home (place ++ [v.name.toList]) ∧ tree.nodes (place ++ [v.name.toList]) ≠ none := by
  obtain ⟨others,read',entries⟩ := shows.read place directory
  obtain ⟨rfl,-⟩ := Prod.mk.inj (read.symm.trans read')
  exact ⟨by rw [pathOf_append,String.ofList_toList],(entries _).mp ⟨v,inside,rfl⟩⟩

theorem Shows.walkable (shows : Shows host files home linked tree) {place : Place} {kind : Kind} {info : FileInfo}
    (there : tree.nodes place = some kind) (found : (host.answer files (.lstat (pathOf home place))).2 = .ok info) :
    Walkable host.toFileSystem files (pathOf home place) info := by
  obtain ⟨depth,deepest⟩ := exists_depth tree
  -- by induction on how far it is to the depth where the tree ends
  induction left : depth + 1 - place.length generalizing place kind info with
  | zero =>
    have length := deepest place (by rw [there]; simp)
    omega
  | succ left ih =>
    cases isDir : info.isDir with
    | false => exact .file isDir
    | true =>
      obtain ⟨rfl,-⟩ := (shows.isDir there found).mp isDir
      obtain ⟨vs,read,-⟩ := shows.read place there
      refine .directory isDir (shows.opened place there) read (fun v inside => ?_) (fun v inside inner foundThere => ?_)
      · obtain ⟨joined,some⟩ := shows.entry there read inside
        obtain ⟨kind,here⟩ := Option.ne_none_iff_exists'.mp some
        obtain ⟨inner,foundThere,-⟩ := shows.found _ kind here
        exact ⟨inner,joined ▸ foundThere⟩
      · obtain ⟨joined,some⟩ := shows.entry there read inside
        obtain ⟨kind,here⟩ := Option.ne_none_iff_exists'.mp some
        rw [joined] at foundThere ⊢
        refine ih here foundThere ?_
        rw [List.length_append,List.length_singleton]
        omega

/-- What is walked is in the tree. -/
theorem Shows.place_of_visits (shows : Shows host files home linked tree) {info : FileInfo} {next : Step}
    (visits : Visits host.toFileSystem files (home,info) next) (found : (host.answer files (.lstat home)).2 = .ok info) :
    ∃ place kind, tree.nodes place = some kind ∧ next.1 = pathOf home place ∧
      (host.answer files (.lstat next.1)).2 = .ok next.2 ∧ (place ≠ [] → linked = false) := by
  induction visits with
  | refl => exact ⟨[],_,tree.root,rfl,found,fun some => absurd rfl some⟩
  | @tail above next _ enters ih =>
    obtain ⟨place,kind,there,path,looked,below⟩ := ih
    obtain ⟨isDir,vs,v,read,inside,joined,foundThere⟩ := enters
    rw [path] at looked read joined
    obtain ⟨rfl,start⟩ := (shows.isDir there looked).mp isDir
    obtain ⟨same,some⟩ := shows.entry there read inside
    obtain ⟨kind,here⟩ := Option.ne_none_iff_exists'.mp some
    refine ⟨_,kind,here,joined.trans same,foundThere,fun _ => ?_⟩
    by_cases top : place = []
    · exact start top
    · exact below top

/-- What is in the tree is walked, where `HomeDir` is no link. -/
theorem Shows.visits (shows : Shows host files home linked tree) (straight : linked = false) {info : FileInfo}
    (found : (host.answer files (.lstat home)).2 = .ok info) {place : Place} {kind : Kind} (there : tree.nodes place = some kind) :
    ∃ i, Visits host.toFileSystem files (home,info) (pathOf home place,i) ∧
      (host.answer files (.lstat (pathOf home place))).2 = .ok i := by
  induction place using List.reverseRecOn generalizing kind with
  | nil => exact ⟨info,.refl,found⟩
  | append_singleton place n ih =>
    have directory := tree.closed place n (by rw [there]; simp)
    obtain ⟨i,visits,looked⟩ := ih directory
    obtain ⟨vs,read,entries⟩ := shows.read place directory
    obtain ⟨v,inside,name⟩ := (entries n).mpr (by rw [there]; simp)
    obtain ⟨inner,foundThere,-⟩ := shows.found _ kind there
    have joined : pathOf home (place ++ [n]) = join [pathOf home place,v.name] := by
      rw [pathOf_append,← name,String.ofList_toList]
    have allowed := (shows.isDir directory looked).mpr ⟨rfl,fun _ => straight⟩
    exact ⟨inner,visits.tail ⟨allowed,vs,v,read,inside,joined,foundThere⟩,foundThere⟩

/-- What is added for a directory. -/
def picked (path : String) (info : FileInfo) : List String := if info.isDir && !shouldExclude path then [path] else []

theorem addDir_eq (path : String) (info : FileInfo) (watched : List String) :
    addDir path info watched = watched ++ picked path info := by
  unfold addDir picked add
  cases info.isDir <;> cases shouldExclude path <;> simp

/-- The watcher is set up, and watches `HomeDir` and the directories that are not left out. -/
theorem Shows.exists_setUp (shows : Shows host files home linked tree) :
    ∃ watched, SetUp host files home watched ∧ Watches home linked (start tree watched) := by
  obtain ⟨info,found,-⟩ := shows.found [] _ tree.root
  obtain ⟨watched,members,enough,ran⟩ :=
    exists_collected addDir_eq found (shows.walkable tree.root found) (add home [])
  refine ⟨watched,⟨enough,fun fuel ample => ?_⟩,fun place single => ?_⟩
  · rw [startWatcher,addDirsToWatcher]
    have same : pathOf home [] = home := rfl
    rw [same] at ran
    rw [ran fuel ample]
  · rw [start,members]
    constructor
    · rintro (first | ⟨path,i,visits,inside⟩)
      · have here : pathOf home place = pathOf home [] := List.mem_singleton.mp first
        exact .inl (pathOf_injective shows.given single (by simp) here)
      · obtain ⟨other,kind,there,located,looked,below⟩ := shows.place_of_visits visits found
        dsimp only at located looked
        subst located
        obtain ⟨⟨isDir,plain⟩,same⟩ : (i.isDir = true ∧ shouldExclude (pathOf home other) = false) ∧
            pathOf home place = pathOf home other := by
          unfold picked at inside
          split_ifs at inside with kept
          · exact ⟨by simpa using kept,List.mem_singleton.mp inside⟩
          · exact absurd inside List.not_mem_nil
        obtain rfl := pathOf_injective shows.given single (tree.single other (by rw [there]; simp)) same
        obtain ⟨rfl,-⟩ := (shows.isDir there looked).mp isDir
        by_cases top : place = []
        · exact .inl top
        · exact .inr ⟨below top,by simpa using there,plain⟩
    · rintro (rfl | ⟨straight,stands,plain⟩)
      · exact .inl (List.mem_singleton_self home)
      · have there : tree.nodes place = some .directory := by simpa using stands
        obtain ⟨i,visits,looked⟩ := shows.visits straight found there
        have isDir := (shows.isDir there looked).mpr ⟨rfl,fun _ => straight⟩
        exact .inr ⟨_,i,visits,by simp [picked,isDir,plain]⟩

end

/-- Every change in a directory without an excluded component leads to a reload signal if
    and only if every change is made in `HomeDir` itself or, where it is no link, in a
    directory that has stood since the watcher was set up and in whose path no excluded
    name stands. -/
theorem watches_iff {Files : Type} (host : Host Files) (files : Files) (home : String) (linked : Bool) (tree : Tree)
    (shows : Shows host files home linked tree) :
    ∃ watched, SetUp host files home watched ∧ ∀ changes,
      (Meets (step home) (Seen home) (start tree watched) changes ↔
        Meets (step home) (Covered home linked) (start tree watched) changes) := by
  obtain ⟨watched,setUp,watches⟩ := shows.exists_setUp
  refine ⟨watched,setUp,fun changes => ?_⟩
  apply @meets_iff_meets _ _ _ _ _ (Watches home linked)
  · exact fun s c watches => seen_iff watches c
  · exact fun s c watches _ => step_watches shows.given watches c
  · exact watches

/-! ## A directory that is created later -/

theorem SetUp.unique {Files : Type} {host : Host Files} {files : Files} {home : String} {watched others : List String}
    (setUp : SetUp host files home watched) (setUp' : SetUp host files home others) : watched = others := by
  obtain ⟨enough,ran⟩ := setUp
  obtain ⟨enough',ran'⟩ := setUp'
  have first := ran (max enough enough') (le_max_left _ _)
  have second := ran' (max enough enough') (le_max_right _ _)
  exact (Prod.mk.inj (Except.ok.inj (first.symm.trans second))).2

/-- Nothing is in the project yet. -/
def emptyTree : Tree where
  nodes place := if place = [] then some .directory else none
  places := [[]]
  inside place there := by
    by_cases here : place = []
    · simp [here]
    · simp [here] at there
  root := rfl
  closed place n there := by simp at there
  single place there n member := by
    by_cases here : place = []
    · simp [here] at member
    · simp [here] at there

def emptyHost : Host Unit := DirectoryOrder.yields ListedPaths.versionsHost "/home/u" []

theorem empty_shows : Shows emptyHost () "/home/u" false emptyTree := by
  have only {place : Place} {kind : Kind} (there : emptyTree.nodes place = some kind) : place = [] ∧ kind = .directory := by
    by_cases here : place = []
    · simp [emptyTree,here] at there
      exact ⟨here,there.symm⟩
    · simp [emptyTree,here] at there
  constructor
  · intro place kind there
    obtain ⟨rfl,rfl⟩ := only there
    exact ⟨⟨base "/home/u",true,0,"2025-01-01T00:00:00Z"⟩,rfl,by simp⟩
  · exact fun _ _ => rfl
  · intro place there
    obtain ⟨rfl,-⟩ := only there
    exact ⟨[],rfl,by simp [emptyTree]⟩

def src : List Char := "src".toList
def main : List Char := "main.go".toList

/-- A directory is made, and a file in it. -/
def newDirectory : List Change := [.create [] src .directory,.create [src] main .file]

theorem src_allowed : emptyTree.Allows (.create [] src .directory) := by decide

theorem main_allowed : (emptyTree.after _ src_allowed).Allows (.create [src] main .file) := by decide

/-- The file in the new directory is not seen. -/
theorem newDirectory_missed : ¬ ∃ watched, SetUp emptyHost () "/home/u" watched ∧
    Meets (step "/home/u") (Seen "/home/u") (start emptyTree watched) newDirectory := by
  rintro ⟨watched,setUp,-,seen,-⟩
  obtain ⟨others,setUp',watches⟩ := empty_shows.exists_setUp
  obtain rfl := setUp.unique setUp'
  have made : (step "/home/u" (start emptyTree watched) (.create [] src .directory)).1 =
      { start emptyTree watched with tree := emptyTree.after _ src_allowed } := by
    have allowed : (start emptyTree watched).tree.Allows (.create [] src .directory) := src_allowed
    rw [step,dif_pos allowed]
    rfl
  rw [seen_iff (step_watches empty_shows.given watches _),made] at seen
  have included : Included [src] := by decide
  rcases seen main_allowed included with here | ⟨-,stands,-⟩
  · cases here
  · have fresh : emptyTree.nodes [src] ≠ some .directory := by decide
    exact fresh (of_decide_eq_true stands)

/-- What is changed in `HomeDir` itself is seen. -/
theorem main_seen : ∃ watched, SetUp emptyHost () "/home/u" watched ∧
    Meets (step "/home/u") (Seen "/home/u") (start emptyTree watched) [.create [] main .file,.write [] main] := by
  obtain ⟨watched,setUp,same⟩ := watches_iff emptyHost () "/home/u" false emptyTree empty_shows
  refine ⟨watched,setUp,(same _).mpr ⟨?_,?_,trivial⟩⟩
  · exact fun _ _ => .inl rfl
  · exact fun _ _ => .inl rfl

end Zasper.ContentWatcher
