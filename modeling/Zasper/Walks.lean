import Zasper.OperatingSystem
import Mathlib.Logic.Relation

/-!
# Walks through a directory

`filepath.Walk` as a program over the file calls: what is found at a path is handed to a
function, then, for a directory, its entries in the order of their names. Links are not
followed. The functions of the server return an error they are handed and none of their
own (`reporting`), so a walk ends well just where everything can be listed and looked up
(`Walkable`), and has then handed over what lies below its start (`Visits`).
-/
namespace Zasper.Walks
open Zasper.Paths Zasper.Programs Zasper.OperatingSystem
set_option linter.unusedSimpArgs false

/-- What is done for a path, with the information on it or the error. -/
abbrev WalkFunc (σ : Type) := String → Option FileInfo → Option OsError → σ → Option OsError × σ

/-- The names in a directory, sorted. -/
def readDirNames (dirname : String) : Os (Except OsError (List EntryName)) := .call (.openDir dirname) (fun
  | some err => pure (.error err)
  | none => .call (.readDir dirname) (fun
    | (_,some err) => pure (.error err)
    | (names,none) => pure (.ok (names.mergeSort (fun a b => a.name ≤ b.name)))))

section
variable {σ : Type} (walkFn : WalkFunc σ)

/-- The entries of a directory, each walked by `inner`. -/
def walkNames (inner : String → FileInfo → σ → Os (Option OsError × σ)) (path : String) :
    List EntryName → σ → Os (Option OsError × σ)
  | [], s => pure (none,s)
  | name :: names, s =>
    let filename := join [path,name.name]
    .call (.lstat filename) (fun
      | .error err =>
        match walkFn filename none (some err) s with
        | (some err,s) => pure (some err,s)
        | (none,s) => walkNames inner path names s
      | .ok fileInfo => do
        match ← inner filename fileInfo s with
        | (some err,s) => pure (some err,s)
        | (none,s) => walkNames inner path names s)

/-- The walk below a path; no function asks for a directory to be skipped. -/
def walk : Nat → String → FileInfo → σ → Os (Option OsError × σ)
  | 0, _, _, _ => .stop .fuel
  | fuel+1, path, info, s =>
    if info.isDir then do
      match ← readDirNames path with
      | .error err => pure (walkFn path (some info) (some err) s)
      | .ok names =>
        match walkFn path (some info) none s with
        | (some err1,s) => pure (some err1,s)
        | (none,s) => walkNames walkFn (walk fuel) path names s
    else pure (walkFn path (some info) none s)

def filepathWalk (fuel : Nat) (root : String) (s : σ) : Os (Option OsError × σ) := .call (.lstat root) (fun
  | .error err => pure (walkFn root none (some err) s)
  | .ok info => walk walkFn fuel root info s)

end

/-- Returns an error that it is handed, and none of its own. -/
def reporting {σ : Type} (visit : String → FileInfo → σ → σ) : WalkFunc σ := fun path info err s =>
  match err,info with
  | some err,_ => (some err,s)
  | none,some info => (none,visit path info s)
  | none,none => (none,s)

section
variable {Files : Type} (system : FileSystem Files) (files : Files)

/-- Everything below the path can be listed and looked up, to some depth where it ends. -/
inductive Walkable : String → FileInfo → Prop where
  | file {path : String} {info : FileInfo} (plain : info.isDir = false) : Walkable path info
  | directory {path : String} {info : FileInfo} {vs : List EntryName} (directory : info.isDir = true)
      (opened : (system.answer files (.openDir path)).2 = none)
      (read : (system.answer files (.readDir path)).2 = (vs,none))
      (found : ∀ v ∈ vs, ∃ inner, (system.answer files (.lstat (join [path,v.name]))).2 = .ok inner)
      (entries : ∀ v ∈ vs, ∀ inner, (system.answer files (.lstat (join [path,v.name]))).2 = .ok inner →
        Walkable (join [path,v.name]) inner) : Walkable path info

/-- What is walked: a path, with the information on it. -/
abbrev Step := String × FileInfo

/-- The second lies in the directory of the first. -/
def Enters (step next : Step) : Prop := step.2.isDir = true ∧
  ∃ vs v, (system.answer files (.readDir step.1)).2 = (vs,none) ∧ v ∈ vs ∧ next.1 = join [step.1,v.name] ∧
    (system.answer files (.lstat next.1)).2 = .ok next.2

/-- The second is the first, or lies below it. -/
def Visits : Step → Step → Prop := Relation.ReflTransGen (Enters system files)

/-- The walk hands over the steps of the trail, one after the other. -/
def Follows (trail : List Step) (run : ∀ {σ : Type}, (String → FileInfo → σ → σ) → σ → Os (Option OsError × σ)) :
    Prop :=
  ∀ (σ : Type) (visit : String → FileInfo → σ → σ) (s : σ), (run visit s).run system.answer files =
    (files,.ok (none,trail.foldl (fun s step => visit step.1 step.2 s) s))

/-- The trail of a walk, which consists of what lies below its start. -/
structure Trail (path : String) (info : FileInfo) (trail : List Step) : Prop where
  within : ∀ step, step ∈ trail ↔ Visits system files (path,info) step
  follows : ∃ enough, ∀ fuel, enough ≤ fuel → Follows system files trail (fun visit => walk (reporting visit) fuel path info)

end

/-! ## Walks that end well -/

section
variable {Files : Type} {system : FileSystem Files} {files : Files}

theorem run_readDirNames (path : String) :
    (readDirNames path).run system.answer files = (files,.ok (
      match (system.answer files (.openDir path)).2,(system.answer files (.readDir path)).2 with
      | some err,_ => .error err
      | none,(_,some err) => .error err
      | none,(names,none) => .ok (names.mergeSort (fun a b => a.name ≤ b.name)))) := by
  have openKept : (system.answer files (.openDir path)).1 = files := system.kept files _ rfl
  have readKept : (system.answer files (.readDir path)).1 = files := system.kept files _ rfl
  rw [readDirNames,Program.run_call,openKept]
  cases (system.answer files (.openDir path)).2 with
  | some err => rfl
  | none =>
    rw [Program.run_call,readKept]
    rcases (system.answer files (.readDir path)).2 with ⟨names,_ | err⟩ <;> rfl

/-- The entries of a directory, where each of them is walked along a trail. -/
theorem follows_walkNames {path : String} {names : List EntryName}
    (each : ∀ v ∈ names, ∃ inner trail, (system.answer files (.lstat (join [path,v.name]))).2 = .ok inner ∧
      Trail system files (join [path,v.name]) inner trail) :
    ∃ trail enough, (∀ step, step ∈ trail ↔ ∃ v ∈ names, ∃ inner,
        (system.answer files (.lstat (join [path,v.name]))).2 = .ok inner ∧ Visits system files (join [path,v.name],inner) step) ∧
      ∀ fuel, enough ≤ fuel →
        Follows system files trail (fun visit => walkNames (reporting visit) (walk (reporting visit) fuel) path names) := by
  induction names with
  | nil => exact ⟨[],0,by simp,fun _ _ _ _ _ => rfl⟩
  | cons v names ih =>
    obtain ⟨inner,first,found,⟨within,enough,follows⟩⟩ := each v List.mem_cons_self
    obtain ⟨later,enoughLater,others,followsLater⟩ := ih (fun w inside => each w (List.mem_cons_of_mem _ inside))
    refine ⟨first ++ later,max enough enoughLater,?_,?_⟩
    · intro step
      rw [List.mem_append,within,others]
      simp [found]
    · intro fuel ample σ visit s
      have lstatKept : (system.answer files (.lstat (join [path,v.name]))).1 = files := system.kept files _ rfl
      have firstRun := follows fuel (le_trans (le_max_left _ _) ample) σ visit s
      beta_reduce at firstRun ⊢
      rw [walkNames,Program.run_call,lstatKept,found,Program.run_bind,firstRun,List.foldl_append]
      exact followsLater fuel (le_trans (le_max_right _ _) ample) σ visit _

/-- What can be walked is walked along a trail. -/
theorem exists_trail {path : String} {info : FileInfo} (walkable : Walkable system files path info) :
    ∃ trail, Trail system files path info trail := by
  induction walkable with
  | @file path info plain =>
    refine ⟨[(path,info)],?_,1,?_⟩
    · intro step
      constructor
      · intro inside
        rw [List.mem_singleton.mp inside]
        exact .refl
      · intro visits
        rcases visits.cases_head with here | ⟨next,⟨directory,-⟩,-⟩
        · simp [here]
        · rw [plain] at directory
          cases directory
    · intro fuel ample σ visit s
      obtain ⟨fuel,rfl⟩ := Nat.exists_eq_add_of_le' ample
      simp [walk,plain,reporting]
  | @directory path info vs directory opened read found entries ih =>
    have sorted (v : EntryName) : v ∈ vs.mergeSort (fun a b => a.name ≤ b.name) ↔ v ∈ vs :=
      (List.mergeSort_perm vs _).mem_iff
    obtain ⟨trail,enough,within,follows⟩ := @follows_walkNames _ system files path _ (fun v inside => by
      obtain ⟨inner,there⟩ := found v ((sorted v).mp inside)
      obtain ⟨trail,walked⟩ := ih v ((sorted v).mp inside) inner there
      exact ⟨inner,trail,there,walked⟩)
    refine ⟨(path,info) :: trail,?_,enough+1,?_⟩
    · intro step
      rw [List.mem_cons,within]
      constructor
      · rintro (rfl | ⟨v,inside,inner,there,visits⟩)
        · exact .refl
        · exact .head ⟨directory,vs,v,read,(sorted v).mp inside,rfl,there⟩ visits
      · intro visits
        rcases visits.cases_head with here | ⟨⟨_,inner⟩,⟨-,others,v,readToo,inside,rfl,there⟩,later⟩
        · exact .inl here.symm
        · obtain ⟨rfl,-⟩ := Prod.mk.inj (read.symm.trans readToo)
          exact .inr ⟨v,(sorted v).mpr inside,inner,there,later⟩
    · intro fuel ample σ visit s
      obtain ⟨fuel,rfl⟩ := Nat.exists_eq_add_of_le' ample
      have further := follows (fuel + enough) (Nat.le_add_left _ _) σ visit (visit path info s)
      beta_reduce at further ⊢
      rw [← Nat.add_assoc,walk,if_pos directory,Program.run_bind,run_readDirNames,opened,read]
      exact further

/-! ## What a walk that ends well has found -/

theorem calls_walkNames {σ : Type} (walkFn : WalkFunc σ) {inner : String → FileInfo → σ → Os (Option OsError × σ)}
    (reads : ∀ path info s, Program.Calls (fun c => c.reads = true) (inner path info s)) (path : String)
    (names : List EntryName) (s : σ) :
    Program.Calls (fun c => c.reads = true) (walkNames walkFn inner path names s) := by
  induction names generalizing s with
  | nil => exact trivial
  | cons v names ih =>
    refine ⟨rfl,?_⟩
    rintro (err | fileInfo)
    · rcases result : walkFn (join [path,v.name]) none (some err) s with ⟨_ | err,s'⟩
      · simpa [result] using ih s'
      · simp [result]
    · refine Program.calls_bind.mpr ⟨reads _ _ _,?_⟩
      rintro ⟨_ | err,s'⟩ -
      · exact ih s'
      · exact trivial

theorem calls_walk {σ : Type} (walkFn : WalkFunc σ) (fuel : Nat) (path : String) (info : FileInfo) (s : σ) :
    Program.Calls (fun c => c.reads = true) (walk walkFn fuel path info s) := by
  induction fuel generalizing path info s with
  | zero => exact trivial
  | succ fuel ih =>
    rw [walk]
    split_ifs with directory
    · refine Program.calls_bind.mpr ⟨?_,?_⟩
      · refine ⟨rfl,?_⟩
        rintro (_ | err)
        · refine ⟨rfl,?_⟩
          rintro ⟨names,_ | err⟩ <;> exact trivial
        · exact trivial
      · rintro (err | names) -
        · exact trivial
        · rcases result : walkFn path (some info) none s with ⟨_ | err,s'⟩
          · simpa [result] using calls_walkNames walkFn ih path names s'
          · simp [result]
    · exact trivial

theorem run_walk_files {σ : Type} (walkFn : WalkFunc σ) (fuel : Nat) (path : String) (info : FileInfo) (s : σ) :
    ((walk walkFn fuel path info s).run system.answer files).1 = files :=
  Program.run_world system.kept (calls_walk walkFn fuel path info s) files

variable {σ : Type} {visit : String → FileInfo → σ → σ}

/-- Where the entries of a directory are walked without an error, so is each of them. -/
theorem of_run_walkNames {fuel : Nat} {path : String} {names : List EntryName} {s s' : σ}
    (ended : ((walkNames (reporting visit) (walk (reporting visit) fuel) path names s).run system.answer files).2 = .ok (none,s')) :
    ∀ v ∈ names, ∃ inner t t', (system.answer files (.lstat (join [path,v.name]))).2 = .ok inner ∧
      ((walk (reporting visit) fuel (join [path,v.name]) inner t).run system.answer files).2 = .ok (none,t') := by
  induction names generalizing s with
  | nil => simp
  | cons w names ih =>
    have lstatKept : (system.answer files (.lstat (join [path,w.name]))).1 = files := system.kept files _ rfl
    rw [walkNames,Program.run_call,lstatKept] at ended
    cases found : (system.answer files (.lstat (join [path,w.name]))).2 with
    | error err =>
      rw [found] at ended
      simp [reporting] at ended
    | ok inner =>
      have kept := @run_walk_files _ system files _ (reporting visit) fuel (join [path,w.name]) inner s
      rw [found,Program.run_bind] at ended
      rcases ran : (walk (reporting visit) fuel (join [path,w.name]) inner s).run system.answer files with ⟨after,why | ⟨_ | err,t⟩⟩
      · rw [ran] at ended
        cases ended
      · rw [ran] at ended kept
        obtain rfl : after = files := kept
        intro v inside
        rcases List.mem_cons.mp inside with rfl | later
        · exact ⟨inner,s,t,found,by rw [ran]⟩
        · exact ih ended v later
      · rw [ran] at ended
        simp at ended

theorem walkable_of_run {fuel : Nat} {path : String} {info : FileInfo} {s s' : σ}
    (ended : ((walk (reporting visit) fuel path info s).run system.answer files).2 = .ok (none,s')) :
    Walkable system files path info := by
  induction fuel generalizing path info s s' with
  | zero => cases ended
  | succ fuel ih =>
    cases directory : info.isDir with
    | false => exact .file directory
    | true =>
      rw [walk,if_pos directory,Program.run_bind,run_readDirNames] at ended
      cases opened : (system.answer files (.openDir path)).2 with
      | some err =>
        rw [opened] at ended
        simp [reporting] at ended
      | none =>
        rcases read : (system.answer files (.readDir path)).2 with ⟨vs,_ | err⟩
        · rw [opened,read] at ended
          have each := of_run_walkNames ended
          have sorted (v : EntryName) : v ∈ vs.mergeSort (fun a b => a.name ≤ b.name) ↔ v ∈ vs :=
            (List.mergeSort_perm vs _).mem_iff
          refine .directory directory opened read (fun v inside => ?_) (fun v inside inner found => ?_)
          · obtain ⟨inner,-,-,found,-⟩ := each v ((sorted v).mpr inside)
            exact ⟨inner,found⟩
          · obtain ⟨other,t,t',there,ran⟩ := each v ((sorted v).mpr inside)
            obtain rfl : other = inner := Except.ok.inj (there.symm.trans found)
            exact ih ran
        · rw [opened,read] at ended
          simp [reporting] at ended

theorem run_filepathWalk (walkFn : WalkFunc σ) (fuel : Nat) (root : String) (s : σ) :
    (filepathWalk walkFn fuel root s).run system.answer files =
      match (system.answer files (.lstat root)).2 with
      | .error err => (files,.ok (walkFn root none (some err) s))
      | .ok info => (walk walkFn fuel root info s).run system.answer files := by
  have lstatKept : (system.answer files (.lstat root)).1 = files := system.kept files _ rfl
  rw [filepathWalk,Program.run_call,lstatKept]
  cases (system.answer files (.lstat root)).2 <;> rfl

/-- A walk ends without an error, with enough fuel, if and only if everything can be walked. -/
theorem walkable_iff (root : String) (s : σ) :
    (∃ fuel s', ((filepathWalk (reporting visit) fuel root s).run system.answer files).2 = .ok (none,s')) ↔
      ∃ info, (system.answer files (.lstat root)).2 = .ok info ∧ Walkable system files root info := by
  constructor
  · rintro ⟨fuel,s',ended⟩
    rw [run_filepathWalk] at ended
    cases found : (system.answer files (.lstat root)).2 with
    | error err =>
      rw [found] at ended
      simp [reporting] at ended
    | ok info =>
      rw [found] at ended
      exact ⟨info,rfl,walkable_of_run ended⟩
  · rintro ⟨info,found,walkable⟩
    obtain ⟨trail,-,enough,follows⟩ := exists_trail walkable
    refine ⟨enough,trail.foldl (fun s step => visit step.1 step.2 s) s,?_⟩
    have ran := follows enough le_rfl σ visit s
    beta_reduce at ran
    rw [run_filepathWalk,found]
    dsimp only
    rw [ran]

/-- Where each step adds its own elements. -/
theorem foldl_visit {α : Type} {visit : String → FileInfo → List α → List α} {pick : String → FileInfo → List α}
    (picks : ∀ p i s, visit p i s = s ++ pick p i) (trail : List Step) (s : List α) :
    trail.foldl (fun s step => visit step.1 step.2 s) s = s ++ trail.flatMap (fun step => pick step.1 step.2) := by
  induction trail generalizing s with
  | nil => simp
  | cons step trail ih => rw [List.foldl_cons,ih,picks,List.flatMap_cons,List.append_assoc]

/-- What is collected by a walk that ends without an error. -/
theorem exists_collected {α : Type} {visit : String → FileInfo → List α → List α} {pick : String → FileInfo → List α}
    (picks : ∀ p i s, visit p i s = s ++ pick p i) {root : String} {info : FileInfo}
    (found : (system.answer files (.lstat root)).2 = .ok info) (walkable : Walkable system files root info) (s : List α) :
    ∃ collected, (∀ a, a ∈ collected ↔ a ∈ s ∨ ∃ p i, Visits system files (root,info) (p,i) ∧ a ∈ pick p i) ∧
      ∃ enough, ∀ fuel, enough ≤ fuel →
        (filepathWalk (reporting visit) fuel root s).run system.answer files = (files,.ok (none,collected)) := by
  obtain ⟨trail,within,enough,follows⟩ := exists_trail walkable
  refine ⟨s ++ trail.flatMap (fun step => pick step.1 step.2),?_,enough,?_⟩
  · intro a
    simp [within]
  · intro fuel ample
    have ran := follows fuel ample (List α) visit s
    beta_reduce at ran
    rw [run_filepathWalk,found]
    dsimp only
    rw [ran,foldl_visit picks]

end

end Zasper.Walks
