import Zasper.Commits
import Mathlib.Data.List.Dedup

/-!
# Uncommitted files

The list of uncommitted files, along runs of edits and of requests to commit. The change of
a file from the index to the work tree is looked at, and the change from the latest commit
to the index is not: a file whose changes are all staged is hidden. `shown_iff` says in
which runs none ever is.
-/
namespace Zasper.UncommittedFiles
open Zasper.Runs Zasper.Commits
set_option linter.unusedSimpArgs false

/-! ## The status of a repository -/

inductive StatusCode where
  | unmodified
  | untracked
  | modified
  | added
  | deleted
  | renamed
  | copied
  | updatedButUnmerged
deriving DecidableEq

structure FileStatus where
  staging : StatusCode
  worktree : StatusCode

/-- The status of each file, in the order in which the map is gone through. -/
abbrev Status := List (String × FileStatus)

/-- `opened`, `worktree` and `status` are what comes of the calls. -/
def getUncommittedFiles (opened worktree : Option String) (status : Except String Status) : Except String (List String) :=
  match opened with
  | some err => .error err
  | none =>
    match worktree with
    | some err => .error err
    | none =>
      match status with
      | .error err => .error err
      | .ok status => .ok ((status.filter (fun entry => entry.2.worktree ≠ .unmodified)).map Prod.fst)

section
variable {Content : Type}

/-- The status tells the change from the latest commit to the index, and from there to the
    work tree; a file that is not in the index is reported as untracked in both. -/
structure Reports (parent index work : Commits.Tree Content) (status : Status) : Prop where
  distinct : (status.map Prod.fst).Nodup
  staging : ∀ file state, (file,state) ∈ status →
    index file = none ∧ state.staging = .untracked ∨ (state.staging = .unmodified ↔ parent file = index file)
  worktree : ∀ file state, (file,state) ∈ status → (state.worktree = .unmodified ↔ index file = work file)
  absent : ∀ file, (∀ state, (file,state) ∉ status) → parent file = index file ∧ index file = work file

/-- A repository and its work tree. -/
structure State (Content : Type) where
  repo : Repo Content
  work : Commits.Tree Content
  /-- There are finitely many files. -/
  finite : ∃ files : List String, ∀ file, file ∉ files →
    head repo.commits file = none ∧ repo.index file = none ∧ work file = none

/-- The files that are returned are those whose content differs from the latest commit in
    the index or in the work tree. -/
def Shown (s : State Content) : Prop := ∀ status, Reports (head s.repo.commits) s.repo.index s.work status →
  ∃ files, getUncommittedFiles none none (.ok status) = .ok files ∧ files.Nodup ∧
    ∀ file, file ∈ files ↔ s.repo.index file ≠ head s.repo.commits file ∨ s.work file ≠ head s.repo.commits file

/-- No file has all its changes staged. -/
def Plain (parent index work : Commits.Tree Content) : Prop := ∀ file, index file = work file → index file = parent file

/-- A change code for two contents of a file. -/
def codeOf [DecidableEq Content] : Option Content → Option Content → StatusCode
  | none, none => .unmodified
  | none, some _ => .added
  | some _, none => .deleted
  | some old, some new => if old = new then .unmodified else .modified

theorem codeOf_iff [DecidableEq Content] (old new : Option Content) : codeOf old new = .unmodified ↔ old = new := by
  cases old <;> cases new <;> simp [codeOf]

theorem exists_reports (s : State Content) : ∃ status, Reports (head s.repo.commits) s.repo.index s.work status := by
  classical
  obtain ⟨files,none⟩ := s.finite
  let state (file : String) : FileStatus :=
    ⟨codeOf (head s.repo.commits file) (s.repo.index file),codeOf (s.repo.index file) (s.work file)⟩
  refine ⟨files.dedup.map (fun file => (file,state file)),?_,?_,?_,?_⟩
  · simpa [List.map_map,Function.comp_def] using files.nodup_dedup
  · intro file code inside
    obtain ⟨other,-,same⟩ := List.mem_map.mp inside
    obtain ⟨rfl,rfl⟩ := Prod.mk.inj same
    exact .inr (codeOf_iff _ _)
  · intro file code inside
    obtain ⟨other,-,same⟩ := List.mem_map.mp inside
    obtain ⟨rfl,rfl⟩ := Prod.mk.inj same
    exact codeOf_iff _ _
  · intro file absent
    have outside : file ∉ files := fun inside =>
      absent (state file) (List.mem_map.mpr ⟨file,List.mem_dedup.mpr inside,rfl⟩)
    obtain ⟨parent,index,work⟩ := none file outside
    rw [parent,index,work]
    exact ⟨rfl,rfl⟩

/-- What is returned for a status. -/
theorem exists_files {parent index work : Commits.Tree Content} {status : Status} (reports : Reports parent index work status) :
    ∃ files, getUncommittedFiles none none (.ok status) = .ok files ∧ files.Nodup ∧
      ∀ file, file ∈ files ↔ index file ≠ work file := by
  refine ⟨_,rfl,?_,?_⟩
  · exact reports.distinct.sublist (List.filter_sublist.map _)
  · intro file
    constructor
    · intro inside
      obtain ⟨⟨_,state⟩,listed,rfl⟩ := List.mem_map.mp inside
      obtain ⟨inside,changed⟩ := List.mem_filter.mp listed
      have other : state.worktree ≠ .unmodified := by simpa using changed
      exact fun same => other ((reports.worktree _ state inside).mpr same)
    · intro changed
      obtain ⟨state,inside⟩ : ∃ state, (file,state) ∈ status := by
        by_contra absent
        exact changed (reports.absent file (not_exists.mp absent)).2
      have other : state.worktree ≠ .unmodified := fun same => changed ((reports.worktree file state inside).mp same)
      exact List.mem_map.mpr ⟨(file,state),List.mem_filter.mpr ⟨inside,by simpa using other⟩,rfl⟩

theorem shown_iff_plain (s : State Content) : Shown s ↔ Plain (head s.repo.commits) s.repo.index s.work := by
  constructor
  · intro shown file same
    obtain ⟨status,reports⟩ := exists_reports s
    obtain ⟨files,listed,-,right⟩ := shown status reports
    obtain ⟨others,listed',-,changed⟩ := exists_files reports
    obtain rfl : files = others := Except.ok.inj (listed.symm.trans listed')
    by_contra staged
    exact (changed file).mp ((right file).mpr (.inl staged)) same
  · intro plain status reports
    obtain ⟨files,listed,distinct,changed⟩ := exists_files reports
    refine ⟨files,listed,distinct,fun file => ?_⟩
    rw [changed file]
    constructor
    · intro differs
      by_contra same
      obtain ⟨index,work⟩ := not_or.mp same
      exact differs ((not_not.mp index).trans (not_not.mp work).symm)
    · rintro (staged | worked) same
      · exact staged (plain file same)
      · exact worked (same ▸ plain file same)

/-! ## Edits and requests -/

inductive Event (Content : Type) where
  /-- A file is written, or removed. -/
  | edit (file : String) (content : Option Content)
  | request (body : Except String RequestData) (outcome : Outcome)

theorem handler_repo (repo : Repo Content) (e : Commits.Event Content) :
    (CommitAndMaybePushHandler repo e).1 =
      match e.body with
      | .error _ => repo
      | .ok requestData => (commitSpecificFiles e.work requestData.files e.outcome repo).1 := by
  unfold CommitAndMaybePushHandler
  cases e.body with
  | error err => rfl
  | ok requestData =>
    dsimp only
    rcases commitSpecificFiles e.work requestData.files e.outcome repo with ⟨after,_ | err⟩
    · dsimp only
      split_ifs
      · cases pushChanges e.outcome <;> rfl
      · rfl
    · rfl

theorem exists_added (work : Commits.Tree Content) (files : List String) (add : Option (Nat × String)) (index : Commits.Tree Content) :
    ∃ added err, addFiles work files add index = (selected work added index,err) := by
  have result := addFiles_eq work files add index
  rcases add with _ | ⟨n,err⟩
  · exact ⟨_,_,result⟩
  · dsimp only at result
    split_ifs at result with before
    · obtain ⟨err,added⟩ := result
      exact ⟨_,_,added⟩
    · exact ⟨_,_,result⟩

/-- What is in the index after a request was there or in the work tree, and what is in the
    latest commit was there or is in the index. -/
theorem handler_file (repo : Repo Content) (e : Commits.Event Content) (file : String) :
    let after := (CommitAndMaybePushHandler repo e).1
    (after.index file = repo.index file ∨ after.index file = e.work file) ∧
      (head after.commits file = head repo.commits file ∨ head after.commits file = after.index file) := by
  rw [handler_repo]
  cases e.body with
  | error err => exact ⟨.inl rfl,.inl rfl⟩
  | ok requestData =>
    obtain ⟨added,err,result⟩ := exists_added e.work requestData.files e.outcome.add repo.index
    have picked : selected e.work added repo.index file = repo.index file ∨ selected e.work added repo.index file = e.work file := by
      unfold selected
      split_ifs
      · exact .inr rfl
      · exact .inl rfl
    have tracked (staged : String → Bool) : stageTracked e.work staged (selected e.work added repo.index) file = repo.index file ∨
        stageTracked e.work staged (selected e.work added repo.index) file = e.work file := by
      unfold stageTracked
      split_ifs
      · exact .inr rfl
      · exact picked
    unfold commitSpecificFiles
    cases e.outcome.opened with
    | some err => exact ⟨.inl rfl,.inl rfl⟩
    | none =>
      dsimp only
      rw [result]
      cases err with
      | some err => exact ⟨picked,.inl rfl⟩
      | none =>
        cases e.outcome.commit with
        | refused err => exact ⟨picked,.inl rfl⟩
        | failed staged err => exact ⟨tracked staged,.inl rfl⟩
        | done => exact ⟨tracked (fun _ => true),.inr rfl⟩

def step (s : State Content) : Event Content → State Content × Option Response
  | .edit file content =>
    ({ s with
      work := Function.update s.work file content
      finite := by
        obtain ⟨files,none⟩ := s.finite
        refine ⟨file :: files,fun other outside => ?_⟩
        obtain ⟨differs,outside⟩ := not_or.mp (List.mem_cons.not.mp outside)
        rw [Function.update_of_ne differs]
        exact none other outside },none)
  | .request body outcome =>
    let after := CommitAndMaybePushHandler s.repo ⟨body,s.work,outcome⟩
    ({ s with
      repo := after.1
      finite := by
        obtain ⟨files,none⟩ := s.finite
        refine ⟨files,fun file outside => ?_⟩
        obtain ⟨parent,index,work⟩ := none file outside
        obtain ⟨staged,recorded⟩ := handler_file s.repo ⟨body,s.work,outcome⟩ file
        have nothing : after.1.index file = .none := by rcases staged with same | same <;> rw [same] <;> assumption
        refine ⟨?_,nothing,work⟩
        rcases recorded with same | same
        · rw [same,parent]
        · rw [same]
          exact nothing },some after.2)

/-- No edit makes a file what is staged of it, where that is not committed; and a request
    that fails before it has committed has staged no file whose content differs from the
    latest commit. -/
def Safe (s : State Content) : Event Content → Prop
  | .edit file content => content = s.repo.index file → s.repo.index file = head s.repo.commits file
  | .request body outcome =>
    let parent := head s.repo.commits
    match body with
    | .error _ => True
    | .ok requestData =>
      outcome.opened = none →
        match outcome.add with
        | some (n,_) =>
          if n < requestData.files.length then Unchanged s.work parent (requestData.files.take n)
          else Committed s requestData.files outcome.commit
        | none => Committed s requestData.files outcome.commit
where
  Committed (s : State Content) (files : List String) : CommitOutcome → Prop
    | .refused _ => Unchanged s.work (head s.repo.commits) files
    | .failed staged _ =>
      Unchanged s.work (head s.repo.commits) files ∧
        ∀ file, (s.repo.index file).isSome → staged file → s.work file = head s.repo.commits file
    | .done => True

section
variable {parent index work : Commits.Tree Content} {files : List String}

theorem plain_selected (plain : Plain parent index work) :
    Plain parent (selected work files index) work ↔ Unchanged work parent files := by
  constructor
  · intro after file member
    have here := after file
    simp only [selected,if_pos member,true_implies] at here
    exact here
  · intro unchanged file
    unfold selected
    split_ifs with member
    · exact fun _ => unchanged file member
    · exact plain file

theorem plain_stageTracked (plain : Plain parent index work) {staged : String → Bool} :
    Plain parent (stageTracked work staged (selected work files index)) work ↔
      Unchanged work parent files ∧ ∀ file, (index file).isSome → staged file → work file = parent file := by
  constructor
  · intro after
    have unchanged : Unchanged work parent files := by
      intro file member
      have here := after file
      simp only [stageTracked,selected,if_pos member,ite_self,true_implies] at here
      exact here
    refine ⟨unchanged,fun file tracked isStaged => ?_⟩
    by_cases member : file ∈ files
    · exact unchanged file member
    · have here := after file
      simp only [stageTracked,selected,if_neg member,tracked,isStaged,Bool.and_self,↓reduceIte,true_implies] at here
      exact here
  · rintro ⟨unchanged,rest⟩ file
    by_cases member : file ∈ files
    · exact fun _ => by simpa only [stageTracked,selected,if_pos member,ite_self] using unchanged file member
    · simp only [stageTracked,selected,if_neg member,Bool.and_eq_true]
      split_ifs with here
      · exact fun _ => rest file here.1 here.2
      · exact plain file

end

/-- After the requested files are staged. -/
theorem plain_committed {s : State Content} (plain : Plain (head s.repo.commits) s.repo.index s.work)
    {files : List String} {outcome : Outcome} (opened : outcome.opened = none)
    (added : addFiles s.work files outcome.add s.repo.index = (selected s.work files s.repo.index,none)) :
    let after := (commitSpecificFiles s.work files outcome s.repo).1
    Plain (head after.commits) after.index s.work ↔ Safe.Committed s files outcome.commit := by
  unfold commitSpecificFiles
  rw [opened,added]
  cases outcome.commit with
  | refused err => exact plain_selected plain
  | failed staged err => exact plain_stageTracked plain
  | done => exact iff_of_true (fun file _ => rfl) trivial

/-- From a state in which nothing is hidden, nothing is hidden after a step if and only if
    the step is safe. -/
theorem plain_step {s : State Content} (plain : Plain (head s.repo.commits) s.repo.index s.work) (e : Event Content) :
    let after := (step s e).1
    Plain (head after.repo.commits) after.repo.index after.work ↔ Safe s e := by
  cases e with
  | edit file content =>
    constructor
    · intro after same
      have here := after file
      simp only [step,Function.update_self] at here
      exact here same.symm
    · intro safe other
      by_cases here : other = file
      · subst here
        simp only [step,Function.update_self]
        exact fun same => safe same.symm
      · simp only [step,Function.update_of_ne here]
        exact plain other
  | request body outcome =>
    have repo := handler_repo s.repo ⟨body,s.work,outcome⟩
    simp only [step,repo,Safe]
    cases body with
    | error err => exact iff_of_true plain trivial
    | ok requestData =>
      dsimp only
      cases opened : outcome.opened with
      | some err =>
        simp only [commitSpecificFiles,opened,reduceCtorEq,false_implies,iff_true]
        exact plain
      | none =>
        have files := addFiles_eq s.work requestData.files outcome.add s.repo.index
        simp only [true_implies]
        cases add : outcome.add with
        | none =>
          rw [add] at files
          exact plain_committed plain opened (add ▸ files)
        | some failing =>
          obtain ⟨n,err⟩ := failing
          rw [add] at files
          dsimp only at files ⊢
          split_ifs at files ⊢ with before
          · obtain ⟨err,added⟩ := files
            simp only [commitSpecificFiles,opened,add,added]
            exact plain_selected plain
          · exact plain_committed plain opened (add ▸ files)

/-- Nothing is ever hidden if and only if at first no file has all its changes staged, and
    no step leaves one like that. -/
theorem shown_iff (s : State Content) (events : List (Event Content)) :
    Always step Shown s events ↔ Plain (head s.repo.commits) s.repo.index s.work ∧ Meets step Safe s events := by
  have runs (plain : Plain (head s.repo.commits) s.repo.index s.work) :
      Always step Shown s events ↔ Meets step Safe s events := by
    refine @always_iff_meets _ _ _ step Safe (fun s => Plain (head s.repo.commits) s.repo.index s.work) Shown ?_ ?_ ?_ s
      plain events
    · exact fun s plain => (shown_iff_plain s).mpr plain
    · exact fun s e plain safe => (plain_step plain e).mpr safe
    · exact fun s e plain shown => (plain_step plain e).mp ((shown_iff_plain _).mp shown)
  constructor
  · intro always
    have start : Shown s := by
      cases events with
      | nil => exact always
      | cons _ _ => exact always.1
    have plain := (shown_iff_plain s).mp start
    exact ⟨plain,(runs plain).mp always⟩
  · rintro ⟨plain,safe⟩
    exact (runs plain).mpr safe

end

/-! ## A file that is staged by a request that fails -/

/-- One file is tracked, and committed as it is. -/
def committed : State Nat where
  repo := ⟨[fun file => if file = "a" then some 0 else none],fun file => if file = "a" then some 0 else none⟩
  work file := if file = "a" then some 0 else none
  finite := ⟨["a"],fun file outside => by
    have other : file ≠ "a" := by simpa using outside
    simp [head,other]⟩

/-- The file is changed, and to be committed with one that is not there. -/
def missing : List (Event Nat) :=
  [ .edit "a" (some 1)
  , .request (.ok ⟨"",["a","b"],false⟩) ⟨none,some (1,"entry not found"),.done,none,none,none⟩ ]

theorem missing_hides : ¬ Always step Shown committed missing := by
  rintro ⟨-,-,shown⟩
  have hidden := (shown_iff_plain _).mp shown "a" (by decide)
  revert hidden
  decide

end Zasper.UncommittedFiles
