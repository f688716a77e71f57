import Zasper.ListedPaths
import Zasper.Sorting
import Mathlib.Data.String.Basic
import Mathlib.Data.Prod.Lex
import Mathlib.Logic.Equiv.Basic

/-!
# The order of a listing

What `sort.Sort` makes of the entries of a directory is not said by the order alone: the
directory is listed with any way to sort (`getDirectoryModelBy`). `Less` tells a file and
a notebook apart only by their types, so neither is less than the other. `wellOrdered_iff`
says that a listing is in order, and in the same one however the entries are read, just
where not both are there.
-/
namespace Zasper.DirectoryOrder
open Zasper.JsonText Zasper.Strings Zasper.Paths Zasper.Programs Zasper.OperatingSystem Zasper.ContentManager
open Zasper.Volumes Zasper.ListedPaths Zasper.Sorting
open Zasper.OpenNotebook (safePath)
set_option linter.unusedSimpArgs false

theorem getDirectoryModelBy_mergeSorter (home relativePath : String) :
    getDirectoryModelBy (mergeSorter.sorted entryLess) home relativePath = getDirectoryModel home relativePath := by
  rw [getDirectoryModel]
  congr 1
  funext listOfContents
  exact sorted_mergeSorter ..

/-- The same files, where a directory is read as the given entries. -/
def yields {Files : Type} (host : Host Files) (path : String) (vs : List EntryName) : Host Files where
  answer files
    | .readDir other => (files,if other = path then (vs,none) else (host.answer files (.readDir other)).2)
    | c => host.answer files c
  kept files c reads := by
    cases c with
    | readDir other => rfl
    | _ => exact host.kept files _ reads
  cwd := host.cwd
  rooted := host.rooted
  getwd_eq := host.getwd_eq
  lstat_empty := host.lstat_empty

section
variable {Files : Type} (sorter : Sorter) (host : Host Files) (files : Files) (home relativePath : String)
  (vs : List EntryName)

/-- The path that is looked up and listed. -/
def directory : String := safePath host.cwd home relativePath

/-- The model that an entry is listed as. -/
def modelOf : EntryName → EntryModel := entryModel host files (directory host home relativePath) relativePath

/-- The path leads to a directory, whose entries have distinct names and can be looked up. -/
structure Listing : Prop where
  found : ∃ info, (host.answer files (.lstat (directory host home relativePath))).2 = .ok info
  opened : (host.answer files (.openDir (directory host home relativePath))).2 = none
  distinct : (vs.map EntryName.name).Nodup
  entry : ∀ v ∈ vs, ∃ info,
    (host.answer files (.lstat (join [directory host home relativePath,v.name]))).2 = .ok info ∧ info.name = v.name

/-- The directory is answered with the list, where its entries are read in the order `vs`. -/
def Returns (list : List EntryModel) : Prop :=
  ∃ model, ((getDirectoryModelBy (sorter.sorted entryLess) home relativePath).run
      (yields host (directory host home relativePath) vs).answer files).2 = .ok (.ok model) ∧
    model.content = .entries list

def DirectoriesFirst (list : List EntryModel) : Prop :=
  list.Pairwise (fun a b => b.contentType = "directory" → a.contentType = "directory")

def NamesAscend (list : List EntryModel) : Prop := list.Pairwise (fun a b => a.contentType = b.contentType → a.name < b.name)

/-- `Less` is a strict weak order on the entries, and one list is returned in whichever
    order they are read, directories first and names ascending within each type. -/
structure WellOrdered : Prop where
  ordered : Orders entryLess (vs.map (modelOf host files home relativePath))
  same : ∃ list, (∀ order : List EntryName, order.Perm vs → Returns sorter host files home relativePath order list) ∧
    DirectoriesFirst list ∧ NamesAscend list

/-- The entry is no directory. -/
def IsFile (v : EntryName) : Prop :=
  ∃ info, (host.answer files (.lstat (join [directory host home relativePath,v.name]))).2 = .ok info ∧ info.isDir = false

/-- There is a notebook and a file that is none. -/
def Mixed : Prop :=
  (∃ v ∈ vs, IsFile host files home relativePath v ∧ ext v.name = ".ipynb") ∧
  ∃ v ∈ vs, IsFile host files home relativePath v ∧ ext v.name ≠ ".ipynb"

end

/-! ## Models of one kind beside directories -/

/-- Directories come first, then names. -/
def rank (a : EntryModel) : Lex (Nat × String) := toLex (if a.contentType = "directory" then 0 else 1,a.name)

/-- Beside directories there are entries of one type only. -/
def OneKind (kind : String) (l : List EntryModel) : Prop := ∀ a ∈ l, a.contentType = "directory" ∨ a.contentType = kind

theorem entryLess_iff {kind : String} {l : List EntryModel} (one : OneKind kind l) {a b : EntryModel} (inA : a ∈ l)
    (inB : b ∈ l) : entryLess a b = true ↔ rank a < rank b := by
  rw [Prod.Lex.lt_iff]
  by_cases first : a.contentType = "directory" <;> by_cases second : b.contentType = "directory"
  · simp [entryLess,rank,first,second]
  · simp [entryLess,rank,first,second,Ne.symm second]
  · simp [entryLess,rank,first,second]
  · have same : a.contentType = b.contentType :=
      ((one a inA).resolve_left first).trans ((one b inB).resolve_left second).symm
    simp [entryLess,rank,same,second]

theorem orders_of_oneKind {kind : String} {l : List EntryModel} (one : OneKind kind l) : Orders entryLess l :=
  orders_of_rank (fun _ inA _ inB => entryLess_iff one inA inB)

/-- Where the first is not after the second, neither is its rank. -/
theorem rank_le {kind : String} {l : List EntryModel} (one : OneKind kind l) {a b : EntryModel} (inA : a ∈ l) (inB : b ∈ l)
    (notAfter : entryLess b a = false) : rank a ≤ rank b := by
  rw [← not_lt,← entryLess_iff one inB inA,notAfter]
  simp

variable (sorter : Sorter) {kind : String} {l : List EntryModel}

theorem sorted_directoriesFirst (one : OneKind kind l) : DirectoriesFirst (sorter.sorted entryLess l) := by
  refine (sorted_pairwise sorter (orders_of_oneKind one)).imp_of_mem ?_
  intro a b inA inB notAfter directory
  have perm := sorted_perm sorter entryLess l
  have ranks := rank_le one (perm.mem_iff.mp inA) (perm.mem_iff.mp inB) notAfter
  by_contra file
  rw [Prod.Lex.le_iff] at ranks
  simp [rank,file,directory] at ranks

theorem sorted_namesAscend (one : OneKind kind l) (distinct : (l.map (·.name)).Nodup) :
    NamesAscend (sorter.sorted entryLess l) := by
  have perm := sorted_perm sorter entryLess l
  have apart : (sorter.sorted entryLess l).Pairwise (fun a b => a.name ≠ b.name) :=
    List.pairwise_map.mp ((perm.map _).nodup_iff.mpr distinct)
  refine ((sorted_pairwise sorter (orders_of_oneKind one)).and apart).imp_of_mem ?_
  rintro a b inA inB ⟨notAfter,other⟩ same
  have ranks := rank_le one (perm.mem_iff.mp inA) (perm.mem_iff.mp inB) notAfter
  rw [Prod.Lex.le_iff] at ranks
  have names : a.name ≤ b.name := by simpa [rank,same] using ranks
  exact lt_of_le_of_ne names other

/-- The entries are returned in one order. -/
theorem sorted_oneKind (one : OneKind kind l) (distinct : (l.map (·.name)).Nodup) {order : List EntryModel}
    (perm : order.Perm l) : sorter.sorted entryLess order = sorter.sorted entryLess l := by
  refine sorted_eq_of_perm sorter (orders_of_oneKind one) (fun a inA b inB notBefore notAfter => ?_) perm
  have ranks := le_antisymm (rank_le one inA inB notAfter) (rank_le one inB inA notBefore)
  exact List.inj_on_of_nodup_map distinct inA inB (congrArg (fun r => (ofLex r).2) ranks)

/-! ## A file and a notebook -/

/-- Two entries of one type, and one of another, are no directories. -/
theorem not_orders {a b c : EntryModel} (inA : a ∈ l) (inB : b ∈ l) (inC : c ∈ l) (fileA : a.contentType ≠ "directory")
    (fileB : b.contentType ≠ "directory") (same : a.contentType = c.contentType) (other : b.contentType ≠ a.contentType)
    (apart : a.name ≠ c.name) : ¬ Orders entryLess l := by
  intro orders
  have alike := @IsStrictWeakOrder.incomp_trans _ _ orders ⟨a,inA⟩ ⟨b,inB⟩ ⟨c,inC⟩
    (by simp [entryLess,fileA,fileB,other,Ne.symm other])
    (by simp [entryLess,fileA,fileB,other,Ne.symm other,← same])
  simp only [entryLess,same,ne_eq,not_true_eq_false,↓reduceIte,decide_eq_true_eq,not_lt] at alike
  exact apart (le_antisymm alike.2 alike.1)

/-- A file and a notebook beside directories change places where they are read in
    another order. -/
theorem sorted_swapped {a b : EntryModel} {rest : List EntryModel} (fileA : a.contentType ≠ "directory")
    (fileB : b.contentType ≠ "directory") (other : a.contentType ≠ b.contentType)
    (directories : ∀ c ∈ rest, c.contentType = "directory") :
    sorter.sorted entryLess (a :: b :: rest) ≠ sorter.sorted entryLess (b :: a :: rest) := by
  have differ : a ≠ b := fun same => other (congrArg _ same)
  have kept : ∀ c ∈ rest, Equiv.swap a b c = c := by
    intro c inside
    refine Equiv.swap_apply_of_ne_of_ne ?_ ?_
    · rintro rfl
      exact fileA (directories c inside)
    · rintro rfl
      exact fileB (directories c inside)
  have swapped : b :: a :: rest = (a :: b :: rest).map (Equiv.swap a b) := by
    simpa using ((List.map_congr_left kept).trans (List.map_id' rest)).symm
  have same : ∀ c ∈ a :: b :: rest, ∀ d ∈ a :: b :: rest,
      entryLess (Equiv.swap a b c) (Equiv.swap a b d) = entryLess c d := by
    have alike (d : EntryModel) (directory : d.contentType = "directory") :
        entryLess a d = entryLess b d ∧ entryLess d a = entryLess d b := by
      simp [entryLess,directory,fileA,fileB,Ne.symm fileA,Ne.symm fileB]
    have between : entryLess a b = entryLess b a := by simp [entryLess,fileA,fileB,other,Ne.symm other]
    have self : entryLess a a = entryLess b b := by simp [entryLess]
    have toSecond : Equiv.swap a b a = b := Equiv.swap_apply_left a b
    have toFirst : Equiv.swap a b b = a := Equiv.swap_apply_right a b
    intro c inC d inD
    simp only [List.mem_cons] at inC inD
    rcases inC with rfl | rfl | inC <;> rcases inD with rfl | rfl | inD
    · rw [toSecond,self]
    · rw [toFirst,toSecond,between]
    · rw [toSecond,kept d inD,(alike d (directories d inD)).1]
    · rw [toFirst,toSecond,between]
    · rw [toFirst,self]
    · rw [toFirst,kept d inD,(alike d (directories d inD)).1]
    · rw [kept c inC,toSecond,(alike c (directories c inC)).2]
    · rw [kept c inC,toFirst,(alike c (directories c inC)).2]
    · rw [kept c inC,kept d inD]
  intro equal
  rw [swapped,sorted_map sorter same] at equal
  have inside : a ∈ sorter.sorted entryLess (a :: b :: rest) := (sorted_perm sorter entryLess _).mem_iff.mpr (by simp)
  have fixed := List.map_inj_left.mp ((List.map_id _).trans equal) a inside
  simp at fixed
  exact differ fixed

/-! ## What is returned -/

section
variable {Files : Type} {sorter : Sorter} {host : Host Files} {files : Files} {home relativePath : String}
  {vs : List EntryName}

/-- The model of an entry that is found. -/
theorem entryModel_found {abspath : String} {v : EntryName} {info : FileInfo}
    (found : (host.answer files (.lstat (join [abspath,v.name]))).2 = .ok info) :
    entryModel host files abspath relativePath v =
      { name := info.name
        contentType := if info.isDir then "directory" else if ext v.name = ".ipynb" then "notebook" else "file"
        path := entryPath relativePath v.name
        lastModified := info.modTime
        created := info.modTime
        size := info.size } := by
  unfold entryModel getFileModel
  rw [Program.run_call,found]
  rfl

theorem returns_iff (listing : Listing host files home relativePath vs) (order : List EntryName) (list : List EntryModel) :
    Returns sorter host files home relativePath order list ↔
      list = sorter.sorted entryLess (order.map (modelOf host files home relativePath)) := by
  obtain ⟨info,found⟩ := listing.found
  have opened := listing.opened
  unfold Returns
  generalize yielding : yields host (directory host home relativePath) order = other
  have path : safePath other.cwd home relativePath = directory host home relativePath := by rw [← yielding]; rfl
  have lstatKept (path : String) : (other.answer files (.lstat path)).1 = files := other.kept files _ rfl
  have openKept (path : String) : (other.answer files (.openDir path)).1 = files := other.kept files _ rfl
  have looked : (other.answer files (.lstat (directory host home relativePath))).2 = .ok info := by
    rw [← yielding]
    exact found
  have openedToo : (other.answer files (.openDir (directory host home relativePath))).2 = none := by
    rw [← yielding]
    exact opened
  have read : other.answer files (.readDir (directory host home relativePath)) = (files,order,none) := by
    rw [← yielding]
    simp [yields]
  have models : entryModel other files = entryModel host files := by
    funext abspath relativePath v
    simp only [entryModel,getFileModel,Program.run_call]
    rw [← yielding]
    dsimp only [yields]
    cases (host.answer files (.lstat (join [abspath,v.name]))).2 <;> rfl
  simp only [getDirectoryModelBy,Program.run_bind,other.run_getSafePath,Program.run_call,path,lstatKept,openKept,looked,
    openedToo,readOpened,read,run_getFileModels,Program.run_pure,models]
  simp [modelOf,eq_comm]

theorem Listing.named (listing : Listing host files home relativePath vs) :
    ((vs.map (modelOf host files home relativePath)).map (·.name)) = vs.map EntryName.name := by
  rw [List.map_map]
  refine List.map_congr_left (fun v inside => ?_)
  obtain ⟨info,found,name⟩ := listing.entry v inside
  rw [Function.comp_apply,modelOf,entryModel_found found,name]

/-- The type of an entry that is no directory is told by its name. -/
theorem contentType_of_isFile {v : EntryName} (file : IsFile host files home relativePath v) :
    (modelOf host files home relativePath v).contentType =
      if ext v.name = ".ipynb" then "notebook" else "file" := by
  obtain ⟨info,found,isDir⟩ := file
  rw [modelOf,entryModel_found found]
  simp [isDir]

theorem isFile_or (listing : Listing host files home relativePath vs) {v : EntryName} (inside : v ∈ vs) :
    IsFile host files home relativePath v ∨
      (modelOf host files home relativePath v).contentType = "directory" := by
  obtain ⟨info,found,-⟩ := listing.entry v inside
  cases isDir : info.isDir with
  | false => exact .inl ⟨info,found,isDir⟩
  | true =>
    right
    rw [modelOf,entryModel_found found]
    simp [isDir]

theorem oneKind_of_not_mixed (listing : Listing host files home relativePath vs)
    (plain : ¬ Mixed host files home relativePath vs) :
    ∃ kind, OneKind kind (vs.map (modelOf host files home relativePath)) := by
  by_cases notebook : ∃ v ∈ vs, IsFile host files home relativePath v ∧ ext v.name = ".ipynb"
  · refine ⟨"notebook",List.forall_mem_map.mpr (fun v inside => (isFile_or listing inside).symm.imp_right (fun file => ?_))⟩
    have extension : ext v.name = ".ipynb" := by
      by_contra other
      exact plain ⟨notebook,v,inside,file,other⟩
    rw [contentType_of_isFile file,if_pos extension]
  · refine ⟨"file",List.forall_mem_map.mpr (fun v inside => (isFile_or listing inside).symm.imp_right (fun file => ?_))⟩
    have extension : ext v.name ≠ ".ipynb" := fun same => notebook ⟨v,inside,file,same⟩
    rw [contentType_of_isFile file,if_neg extension]

theorem wellOrdered_of_oneKind (listing : Listing host files home relativePath vs) {kind : String}
    (one : OneKind kind (vs.map (modelOf host files home relativePath))) :
    WellOrdered sorter host files home relativePath vs := by
  have distinct := listing.distinct
  rw [← listing.named] at distinct
  refine ⟨orders_of_oneKind one,_,fun order perm => (returns_iff listing order _).mpr ?_,
    sorted_directoriesFirst sorter one,sorted_namesAscend sorter one distinct⟩
  exact (sorted_oneKind sorter one distinct (perm.map _)).symm

/-- Two elements of a list, and what is left. -/
theorem perm_cons_cons {α : Type} {l : List α} {a b : α} (inA : a ∈ l) (inB : b ∈ l) (differ : b ≠ a) :
    ∃ rest, l.Perm (a :: b :: rest) := by
  obtain ⟨s,t,rfl⟩ := List.append_of_mem inA
  have inside : b ∈ s ++ t := by simpa [differ] using inB
  obtain ⟨s',t',split⟩ := List.append_of_mem inside
  refine ⟨s' ++ t',List.perm_middle.trans (List.Perm.cons a ?_)⟩
  rw [split]
  exact List.perm_middle

theorem not_wellOrdered_of_mixed (listing : Listing host files home relativePath vs)
    (mixed : Mixed host files home relativePath vs) : ¬ WellOrdered sorter host files home relativePath vs := by
  obtain ⟨⟨v,inV,fileV,notebook⟩,w,inW,fileW,plain⟩ := mixed
  have typeV := contentType_of_isFile fileV
  have typeW := contentType_of_isFile fileW
  rw [if_pos notebook] at typeV
  rw [if_neg plain] at typeW
  obtain ⟨rest,perm⟩ := perm_cons_cons inV inW (by rintro rfl; exact plain notebook)
  rintro ⟨ordered,list,same,-,-⟩
  by_cases third : ∃ u ∈ rest, IsFile host files home relativePath u
  · -- the third one has the type of one of the two, and is not told apart from the other
    obtain ⟨u,inRest,fileU⟩ := third
    have inU : u ∈ vs := perm.mem_iff.mpr (by simp [inRest])
    have distinct := (perm.map EntryName.name).nodup_iff.mp listing.distinct
    simp only [List.map_cons,List.nodup_cons,List.mem_cons,List.mem_map,not_or,not_exists,not_and] at distinct
    have name {x : EntryName} (inside : x ∈ vs) : (modelOf host files home relativePath x).name = x.name := by
      obtain ⟨info,found,name⟩ := listing.entry x inside
      rw [modelOf,entryModel_found found,name]
    have typeU := contentType_of_isFile fileU
    have inModels {x : EntryName} (inside : x ∈ vs) :
        modelOf host files home relativePath x ∈ vs.map (modelOf host files home relativePath) :=
      List.mem_map_of_mem inside
    by_cases extension : ext u.name = ".ipynb"
    · rw [if_pos extension] at typeU
      refine not_orders (inModels inV) (inModels inW) (inModels inU) ?_ ?_ ?_ ?_ ?_ ordered
      · simp [typeV]
      · simp [typeW]
      · rw [typeV,typeU]
      · simp [typeV,typeW]
      · rw [name inV,name inU]
        exact fun equal => distinct.1.2 u inRest equal.symm
    · rw [if_neg extension] at typeU
      refine not_orders (inModels inW) (inModels inV) (inModels inU) ?_ ?_ ?_ ?_ ?_ ordered
      · simp [typeW]
      · simp [typeV]
      · rw [typeW,typeU]
      · simp [typeV,typeW]
      · rw [name inW,name inU]
        exact fun equal => distinct.2.1 u inRest equal.symm
  · have first := (returns_iff listing _ list).mp (same _ perm.symm)
    have second := (returns_iff listing _ list).mp (same _ ((List.Perm.swap v w rest).trans perm.symm))
    refine sorted_swapped sorter ?_ ?_ ?_ ?_ (first.symm.trans second)
    · simp [typeV]
    · simp [typeW]
    · simp [typeV,typeW]
    · refine List.forall_mem_map.mpr (fun u inRest => ?_)
      exact (isFile_or listing (perm.mem_iff.mpr (by simp [inRest]))).resolve_left (fun file => third ⟨u,inRest,file⟩)

end

/-- However its entries are sorted, a listing is well ordered if and only if there are not
    both a notebook and a file that is none. -/
theorem wellOrdered_iff {Files : Type} (sorter : Sorter) (host : Host Files) (files : Files) (home relativePath : String)
    (vs : List EntryName) (listing : Listing host files home relativePath vs) :
    WellOrdered sorter host files home relativePath vs ↔ ¬ Mixed host files home relativePath vs := by
  constructor
  · intro wellOrdered mixed
    exact not_wellOrdered_of_mixed listing mixed wellOrdered
  · intro plain
    obtain ⟨kind,one⟩ := oneKind_of_not_mixed listing plain
    exact wellOrdered_of_oneKind listing one

/-! ## A notebook between two files -/

def readme : EntryName := ⟨"a.txt",by decide⟩
def analysis : EntryName := ⟨"b.ipynb",by decide⟩
def results : EntryName := ⟨"c.txt",by decide⟩
def draft : EntryName := ⟨"d.ipynb",by decide⟩

/-- Any entries with distinct names in the project of `versionsHost`. -/
theorem versions_listing {vs : List EntryName} (distinct : (vs.map EntryName.name).Nodup)
    (entry : ∀ v ∈ vs, join ["/home/u",v.name] ≠ "" ∧ base (join ["/home/u",v.name]) = v.name) :
    Listing versionsHost () "/home/u" "." vs := by
  have path : directory versionsHost "/home/u" "." = "/home/u" := by decide
  refine ⟨?_,rfl,distinct,?_⟩
  · rw [path]
    exact ⟨_,rfl⟩
  · intro v inside
    obtain ⟨given,name⟩ := entry v inside
    rw [path]
    simp [versionsHost,versionsAnswer,given,name]

/-- The notebook is told apart from neither file, but the files are from each other. -/
theorem analysis_between : Listing versionsHost () "/home/u" "." [readme,analysis,results] ∧
    ∀ sorter, ¬ WellOrdered sorter versionsHost () "/home/u" "." [readme,analysis,results] := by
  refine ⟨versions_listing (by decide) (by decide),fun sorter wellOrdered => ?_⟩
  have readmeFile : (modelOf versionsHost () "/home/u" "." readme).contentType = "file" := by decide
  have analysisNotebook : (modelOf versionsHost () "/home/u" "." analysis).contentType = "notebook" := by decide
  have resultsFile : (modelOf versionsHost () "/home/u" "." results).contentType = "file" := by decide
  refine not_orders (List.mem_map_of_mem (a := readme) (by simp)) (List.mem_map_of_mem (a := analysis) (by simp))
    (List.mem_map_of_mem (a := results) (by simp)) ?_ ?_ ?_ ?_ ?_ wellOrdered.ordered
  · rw [readmeFile]
    decide
  · rw [analysisNotebook]
    decide
  · rw [readmeFile,resultsFile]
  · rw [analysisNotebook,readmeFile]
    decide
  · decide

/-- Two notebooks are listed in the order of their names. -/
theorem notebooks_wellOrdered : WellOrdered mergeSorter versionsHost () "/home/u" "." [draft,analysis] := by
  have listing : Listing versionsHost () "/home/u" "." [draft,analysis] := versions_listing (by decide) (by decide)
  refine (wellOrdered_iff mergeSorter versionsHost () "/home/u" "." _ listing).mpr ?_
  rintro ⟨-,v,inside,-,plain⟩
  have notebooks : ∀ v ∈ [draft,analysis], ext v.name = ".ipynb" := by decide
  exact plain (notebooks v inside)

end Zasper.DirectoryOrder
