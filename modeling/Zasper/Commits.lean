import Mathlib.Logic.Function.Basic
import Mathlib.Tactic.SplitIfs
import Zasper.Runs

/-!
# Commits

The repository under the home directory, and the requests to commit some of its files.
Before it records the index, a commit stages every tracked file that was changed: it
holds exactly the files that were asked for if and only if these are all of them, and
what was staged for a commit that fails stays in the index (`commits_iff`).
-/
namespace Zasper.Commits
open Zasper.Runs
set_option linter.unusedSimpArgs false

section
variable {Content : Type}

/-- The content of each file of a work tree, an index or a commit. -/
abbrev Tree (Content : Type) := String → Option Content

structure Repo (Content : Type) where
  /-- The commits of the branch, the latest first. -/
  commits : List (Tree Content)
  index : Tree Content

/-- The files of the latest commit. -/
def head (commits : List (Tree Content)) : Tree Content := commits.headD (fun _ => none)

/-- What comes of the commit itself. -/
inductive CommitOutcome where
  /-- Nothing was staged. -/
  | refused (err : String)
  /-- Some of the tracked files were staged. -/
  | failed (staged : String → Bool) (err : String)
  | done

/-- What comes of the calls for a request: errors, where there are any. -/
structure Outcome where
  opened : Option String
  /-- The place of the first file that cannot be added. -/
  add : Option (Nat × String)
  commit : CommitOutcome
  reopened : Option String
  remote : Option String
  pushed : Option String

structure RequestData where
  message : String
  files : List String
  push : Bool

structure Event (Content : Type) where
  /-- The decoded body of the request, or the error. -/
  body : Except String RequestData
  work : Tree Content
  outcome : Outcome

structure Response where
  status : Nat
  text : String

/-! ## Requests -/

/-- One path is staged, also where the file is gone. -/
def stage (work : Tree Content) (file : String) (index : Tree Content) : Tree Content :=
  Function.update index file (work file)

/-- The tracked files of a set are staged. -/
def stageTracked (work : Tree Content) (staged : String → Bool) (index : Tree Content) : Tree Content :=
  fun file => if (index file).isSome && staged file then work file else index file

/-- The files are added up to the first that cannot be. -/
def addFiles (work : Tree Content) : List String → Option (Nat × String) → Tree Content → Tree Content × Option String
  | [], _, index => (index,none)
  | file :: _, some (0,err), index => (index,some ("failed to add file " ++ file ++ ": " ++ err))
  | file :: files, some (n + 1,err), index => addFiles work files (some (n,err)) (stage work file index)
  | file :: files, none, index => addFiles work files none (stage work file index)

/-- The repository after the commit, and the error. -/
def commitSpecificFiles (work : Tree Content) (files : List String) (outcome : Outcome) (repo : Repo Content) :
    Repo Content × Option String :=
  match outcome.opened with
  | some err => (repo,some err)
  | none =>
    match addFiles work files outcome.add repo.index with
    | (index,some err) => ({ repo with index := index },some err)
    | (index,none) =>
      match outcome.commit with
      | .refused err => ({ repo with index := index },some err)
      | .failed staged err => ({ repo with index := stageTracked work staged index },some err)
      -- `All: true`
      | .done =>
        let recorded := stageTracked work (fun _ => true) index
        (⟨recorded :: repo.commits,recorded⟩,none)

/-- The error of a push, which leaves the branch and the index. -/
def pushChanges (outcome : Outcome) : Option String :=
  match outcome.reopened with
  | some err => some err
  | none =>
    match outcome.remote with
    | some err => some ("failed to get remote: " ++ err)
    | none => outcome.pushed.map (fun err => "failed to push changes: " ++ err)

def CommitAndMaybePushHandler (repo : Repo Content) (e : Event Content) : Repo Content × Response :=
  match e.body with
  | .error err => (repo,⟨400,"Invalid request body: " ++ err⟩)
  | .ok requestData =>
    match commitSpecificFiles e.work requestData.files e.outcome repo with
    | (repo,some err) => (repo,⟨500,"Failed to commit selected files: " ++ err⟩)
    | (repo,none) =>
      if requestData.push then
        match pushChanges e.outcome with
        | some err => (repo,⟨500,"Failed to push changes: " ++ err⟩)
        | none => (repo,⟨200,"Changes committed and pushed successfully"⟩)
      else (repo,⟨200,"Changes committed successfully"⟩)

/-! ## What requests are to do -/

/-- The parent with the requested files as they are in the work tree. -/
def selected (work : Tree Content) (files : List String) (parent : Tree Content) : Tree Content :=
  fun file => if file ∈ files then work file else parent file

/-- A request that succeeds adds the commit of the requested files; one that fails
    leaves the branch and the index. -/
def Lawful (repo : Repo Content) (e : Event Content) : Prop :=
  let after := CommitAndMaybePushHandler repo e
  if after.2.status = 200 then
    ∃ requestData, e.body = .ok requestData ∧
      after.1.commits = selected e.work requestData.files (head repo.commits) :: repo.commits
  else after.1.commits = repo.commits ∧ after.1.index = repo.index

/-- The files are as they were committed. -/
def Unchanged (work parent : Tree Content) (files : List String) : Prop := ∀ file ∈ files, work file = parent file

/-- Nothing is staged for a commit that fails; the requested files are all that are
    tracked and changed; and a commit is pushed where it is to be. -/
def Good (repo : Repo Content) (e : Event Content) : Prop :=
  let parent := head repo.commits
  match e.body with
  | .error _ => True
  | .ok requestData =>
    e.outcome.opened = none →
      match e.outcome.add with
      | some (n,_) =>
        if n < requestData.files.length then Unchanged e.work parent (requestData.files.take n)
        else Committed e requestData parent
      | none => Committed e requestData parent
where
  Committed (e : Event Content) (requestData : RequestData) (parent : Tree Content) : Prop :=
    match e.outcome.commit with
    | .refused _ => Unchanged e.work parent requestData.files
    | .failed staged _ =>
      Unchanged e.work parent requestData.files ∧
        ∀ file, (parent file).isSome → staged file → e.work file = parent file
    | .done =>
      (∀ file, (parent file).isSome → e.work file ≠ parent file → file ∈ requestData.files) ∧
        (requestData.push → pushChanges e.outcome = none)

/-! ## The index -/

section
variable {work parent : Tree Content} {files : List String}

theorem selected_stage (work : Tree Content) (file : String) (files : List String) (index : Tree Content) :
    selected work files (stage work file index) = selected work (file :: files) index := by
  funext other
  simp only [selected,stage,Function.update_apply,List.mem_cons]
  by_cases here : other = file
  · simp [here]
  · simp [here]

/-- The files before the first that cannot be added are staged. -/
theorem addFiles_eq (work : Tree Content) (files : List String) (add : Option (Nat × String)) (index : Tree Content) :
    match add with
    | none => addFiles work files add index = (selected work files index,none)
    | some (n,_) =>
      if n < files.length then
        ∃ err, addFiles work files add index = (selected work (files.take n) index,some err)
      else addFiles work files add index = (selected work files index,none) := by
  have nothing : ∀ index : Tree Content, selected work [] index = index := by
    intro index
    funext file
    simp [selected]
  induction files generalizing add index with
  | nil =>
    cases add with
    | none => simp [addFiles,nothing]
    | some failing => simp [addFiles,nothing]
  | cons file files ih =>
    cases add with
    | none =>
      simp only [addFiles,ih none,selected_stage]
    | some failing =>
      obtain ⟨n,err⟩ := failing
      cases n with
      | zero =>
        simp only [List.length_cons,Nat.zero_lt_succ,↓reduceIte,List.take_zero,nothing]
        exact ⟨_,rfl⟩
      | succ n =>
        have rest := ih (some (n,err)) (stage work file index)
        simp only [selected_stage] at rest
        simpa only [addFiles,List.length_cons,Nat.add_lt_add_iff_right,List.take_succ_cons] using rest

theorem selected_eq_iff : selected work files parent = parent ↔ Unchanged work parent files := by
  constructor
  · intro same file member
    have here := congrFun same file
    rwa [selected,if_pos member] at here
  · intro unchanged
    funext file
    unfold selected
    split_ifs with member
    · exact unchanged file member
    · rfl

theorem stageTracked_eq_iff {staged : String → Bool} : stageTracked work staged (selected work files parent) = parent ↔
    Unchanged work parent files ∧ ∀ file, (parent file).isSome → staged file → work file = parent file := by
  constructor
  · intro same
    have unchanged : Unchanged work parent files := by
      intro file member
      have here := congrFun same file
      simpa only [stageTracked,selected,if_pos member,ite_self] using here
    refine ⟨unchanged,?_⟩
    intro file tracked isStaged
    have here := congrFun same file
    rw [selected_eq_iff.mpr unchanged] at here
    simpa only [stageTracked,tracked,isStaged,Bool.and_self,↓reduceIte] using here
  · rintro ⟨unchanged,rest⟩
    rw [selected_eq_iff.mpr unchanged]
    funext file
    simp only [stageTracked,Bool.and_eq_true]
    split_ifs with here
    · exact rest file here.1 here.2
    · rfl

/-- The commit holds the requested files alone where no other tracked file was changed. -/
theorem recorded_eq_iff : stageTracked work (fun _ => true) (selected work files parent) = selected work files parent ↔
    ∀ file, (parent file).isSome → work file ≠ parent file → file ∈ files := by
  constructor
  · intro same file tracked changed
    by_contra absent
    have here := congrFun same file
    simp only [stageTracked,selected,if_neg absent,tracked,Bool.and_self,↓reduceIte] at here
    exact changed here
  · intro all
    funext file
    simp only [stageTracked,selected,Bool.and_true]
    by_cases member : file ∈ files
    · rw [if_pos member,ite_self]
    · simp only [if_neg member]
      split_ifs with tracked
      · by_contra changed
        exact member (all file tracked changed)
      · rfl

end

/-! ## Single requests -/

/-- The index is that of the latest commit. -/
def Clean (repo : Repo Content) : Prop := repo.index = head repo.commits

theorem committed_iff {repo : Repo Content} (clean : Clean repo) {e : Event Content} {requestData : RequestData}
    (body : e.body = .ok requestData) (opened : e.outcome.opened = none)
    (added : addFiles e.work requestData.files e.outcome.add repo.index =
      (selected e.work requestData.files repo.index,none)) :
    Lawful repo e ↔ Good.Committed e requestData (head repo.commits) := by
  obtain ⟨commits,index⟩ := repo
  obtain rfl : index = head commits := clean
  unfold Lawful Good.Committed CommitAndMaybePushHandler commitSpecificFiles
  cases commit : e.outcome.commit with
  | refused err => simp [body,opened,added,commit,selected_eq_iff]
  | failed staged err => simp [body,opened,added,commit,stageTracked_eq_iff]
  | done =>
    simp only [body,opened,added,commit]
    cases push : requestData.push with
    | false => simp [← recorded_eq_iff,push]
    | true =>
      cases pushed : pushChanges e.outcome with
      | none => simp [← recorded_eq_iff,push,pushed]
      | some err => simp [push,pushed]

theorem lawful_iff_good (repo : Repo Content) (e : Event Content) (clean : Clean repo) :
    Lawful repo e ↔ Good repo e := by
  cases body : e.body with
  | error err => simp [Lawful,Good,CommitAndMaybePushHandler,body]
  | ok requestData =>
    cases opened : e.outcome.opened with
    | some err => simp [Lawful,Good,CommitAndMaybePushHandler,commitSpecificFiles,body,opened]
    | none =>
      have files := addFiles_eq e.work requestData.files e.outcome.add repo.index
      simp only [Good,body,opened,true_implies]
      cases add : e.outcome.add with
      | none =>
        rw [add] at files
        exact committed_iff clean body opened (add ▸ files)
      | some failing =>
        obtain ⟨n,err⟩ := failing
        rw [add] at files
        dsimp only at files ⊢
        split_ifs at files ⊢ with before
        · obtain ⟨err,added⟩ := files
          obtain ⟨commits,index⟩ := repo
          obtain rfl : index = head commits := clean
          simp [Lawful,CommitAndMaybePushHandler,commitSpecificFiles,body,opened,add,added,selected_eq_iff]
        · exact committed_iff clean body opened (add ▸ files)

/-- What is recorded is both the index and the latest commit. -/
theorem succeeded_clean (repo : Repo Content) (e : Event Content)
    (succeeded : (CommitAndMaybePushHandler repo e).2.status = 200) : Clean (CommitAndMaybePushHandler repo e).1 := by
  unfold CommitAndMaybePushHandler at succeeded ⊢
  cases body : e.body with
  | error err => simp [body] at succeeded
  | ok requestData =>
    have recorded : ∀ after, commitSpecificFiles e.work requestData.files e.outcome repo = (after,none) → Clean after := by
      intro after committed
      unfold commitSpecificFiles at committed
      split at committed
      · cases committed
      · split at committed
        · cases committed
        · split at committed
          · cases committed
          · cases committed
          · obtain rfl := congrArg Prod.fst committed
            rfl
    simp only [body] at succeeded ⊢
    split at succeeded
    · cases succeeded
    · next after committed =>
      split_ifs
      · split <;> exact recorded after committed
      · exact recorded after committed

theorem lawful_clean {repo : Repo Content} {e : Event Content} (clean : Clean repo) (lawful : Lawful repo e) :
    Clean (CommitAndMaybePushHandler repo e).1 := by
  unfold Lawful at lawful
  dsimp only at lawful
  split_ifs at lawful with succeeded
  · exact succeeded_clean repo e succeeded
  · rw [Clean,lawful.1,lawful.2]
    exact clean

/-! ## Runs of requests -/

/-- Where the index is at first that of the latest commit, every request of a run commits
    what was asked for, or nothing, if and only if every request is good. -/
theorem commits_iff (commits : List (Tree Content)) (events : List (Event Content)) :
    Meets CommitAndMaybePushHandler Lawful ⟨commits,head commits⟩ events ↔
      Meets CommitAndMaybePushHandler Good ⟨commits,head commits⟩ events := by
  apply @meets_iff_meets _ _ _ _ _ Clean
  · intro repo e clean
    exact lawful_iff_good repo e clean
  · intro repo e clean good
    exact lawful_clean clean ((lawful_iff_good repo e clean).mpr good)
  · rfl

end

/-- The files `a` and `b`, with one content. -/
def files (content : Nat) : Tree Nat := fun file => if file = "a" ∨ file = "b" then some content else none

/-- Two tracked files were changed, and one is to be committed: both are. -/
theorem unselected_committed :
    ¬ Lawful ⟨[files 0],files 0⟩ ⟨.ok ⟨"",["a"],false⟩,files 1,⟨none,none,.done,none,none,none⟩⟩ := by
  rintro ⟨requestData,body,commits⟩
  obtain rfl := Except.ok.inj body
  have committed := congrArg (fun commits => head commits "b") commits
  exact absurd committed (by decide)

end Zasper.Commits
