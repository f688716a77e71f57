import Mathlib.Algebra.Ring.Parity
import Mathlib.Data.List.Nodup
import Zasper.Commits

/-!
# The selection of a commit

The panel that lists the uncommitted files. The boxes are kept by their place in the list,
and the selection by the names of the files. What a commit asks for are the files that were
clicked an odd number of times, whatever has become of the list (`asked_iff_odd`). The boxes
show what it asks for if and only if no list ever arrives in which the selected files are
not at the places that they had (`selection_shown_iff`).
-/
namespace Zasper.CommitSelection
open Zasper.Runs
open Zasper.Commits (RequestData)
set_option linter.unusedSimpArgs false

structure GitCommit where
  files : List String
  /-- Whether each of the boxes is checked: the browser keeps this for the place of a box. -/
  checked : List Bool
  selectedFiles : List String
  commitMessage : String
  pushAfterCommit : Bool

def mounted : GitCommit := ⟨[],[],[],"",false⟩

inductive Event where
  /-- The list of the files arrives, or none. -/
  | fetchFiles (files : Option (List String))
  /-- The box at a place is clicked. -/
  | change (index : Nat)
  | setCommitMessage (value : String)
  | setPushAfterCommit
  | handleCommit

def handleCheckboxChange (file : String) (selectedFiles : List String) : List String :=
  if file ∈ selectedFiles then selectedFiles.filter (fun f => f ≠ file) else selectedFiles ++ [file]

/-- The body of the request, or none where nothing is selected. -/
def handleCommit (page : GitCommit) : Option RequestData :=
  if page.selectedFiles.length = 0 then none
  else some ⟨page.commitMessage,page.selectedFiles,page.pushAfterCommit⟩

/-- The boxes at the first places stay as they are, and new ones are not checked. -/
def rendered (checked : List Bool) (length : Nat) : List Bool := (List.range length).map (fun i => checked[i]?.getD false)

def step (page : GitCommit) : Event → GitCommit × Option RequestData
  | .fetchFiles files =>
    let files := files.getD []
    ({ page with files := files, checked := rendered page.checked files.length },none)
  | .change index =>
    match page.files[index]? with
    | none => (page,none)
    | some file =>
      ({ page with
          checked := page.checked.modify index not
          selectedFiles := handleCheckboxChange file page.selectedFiles },none)
  | .setCommitMessage value => ({ page with commitMessage := value },none)
  | .setPushAfterCommit => ({ page with pushAfterCommit := !page.pushAfterCommit },none)
  | .handleCommit => (page,handleCommit page)

/-! ## What is selected -/

theorem mem_handleCheckboxChange {file other : String} {selectedFiles : List String} :
    other ∈ handleCheckboxChange file selectedFiles ↔ (other ∈ selectedFiles ↔ other ≠ file) := by
  unfold handleCheckboxChange
  split_ifs with selected
  · simp only [List.mem_filter,decide_eq_true_eq]
    by_cases same : other = file
    · simp [same,selected]
    · simp [same]
  · simp only [List.mem_append,List.mem_singleton]
    by_cases same : other = file
    · simp [same,selected]
    · simp [same]

theorem handleCheckboxChange_nodup {selectedFiles : List String} (nodup : selectedFiles.Nodup) (file : String) :
    (handleCheckboxChange file selectedFiles).Nodup := by
  unfold handleCheckboxChange
  split_ifs with selected
  · exact nodup.filter _
  · rw [List.nodup_append]
    refine ⟨nodup,List.nodup_singleton file,?_⟩
    rintro other there _ here rfl
    exact selected (List.mem_singleton.mp here ▸ there)

/-- The file whose box is clicked. -/
def clicked (page : GitCommit) : Event → Option String
  | .change index => page.files[index]?
  | _ => none

/-- The files whose boxes are clicked in a run. -/
def clicks : GitCommit → List Event → List String
  | _, [] => []
  | page, e :: events => (clicked page e).toList ++ clicks (step page e).1 events

theorem step_selected (page : GitCommit) (e : Event) :
    (step page e).1.selectedFiles =
      match clicked page e with
      | some file => handleCheckboxChange file page.selectedFiles
      | none => page.selectedFiles := by
  cases e with
  | change index =>
    simp only [step,clicked]
    cases page.files[index]? <;> rfl
  | _ => rfl

theorem mem_selected_iff (file : String) (page : GitCommit) (events : List Event) :
    file ∈ (run step page events).1.selectedFiles ↔
      (file ∈ page.selectedFiles ↔ Even ((clicks page events).count file)) := by
  induction events generalizing page with
  | nil => simp [run,clicks]
  | cons e events ih =>
    rw [run,ih,step_selected]
    cases click : clicked page e with
    | none => simp [clicks,click]
    | some other =>
      simp only [clicks,click,Option.toList_some,List.singleton_append,List.count_cons,mem_handleCheckboxChange]
      by_cases same : other = file
      · subst same
        simp only [beq_self_eq_true,↓reduceIte,Nat.even_add_one]
        tauto
      · simp [same,Ne.symm same]

theorem selected_nodup {page : GitCommit} (nodup : page.selectedFiles.Nodup) (events : List Event) :
    (run step page events).1.selectedFiles.Nodup := by
  apply @run_invariant _ _ _ step (fun page => page.selectedFiles.Nodup) _ _ nodup
  intro page e nodup
  rw [step_selected]
  split
  · exact handleCheckboxChange_nodup nodup _
  · exact nodup

/-- A commit asks for each of the files that were clicked an odd number of times before,
    once, and for no other file; where there is none it is not sent. -/
theorem asked_iff_odd (events : List Event) :
    let page := (run step mounted events).1
    match (step page .handleCommit).2 with
    | some requestData =>
      requestData.files.Nodup ∧ ∀ file, file ∈ requestData.files ↔ Odd ((clicks mounted events).count file)
    | none => ∀ file, Even ((clicks mounted events).count file) := by
  intro page
  have odd : ∀ file, file ∈ page.selectedFiles ↔ Odd ((clicks mounted events).count file) := by
    intro file
    rw [← Nat.not_even_iff_odd]
    refine (mem_selected_iff file mounted events).trans ?_
    have none : file ∉ mounted.selectedFiles := List.not_mem_nil
    simp only [none,false_iff]
  simp only [step,handleCommit]
  split_ifs with nothing
  · intro file
    have unselected : file ∉ page.selectedFiles := by
      rw [List.length_eq_zero_iff.mp nothing]
      exact List.not_mem_nil
    rw [odd file,Nat.not_odd_iff_even] at unselected
    exact unselected
  · exact ⟨selected_nodup List.nodup_nil events,odd⟩

/-! ## What is shown -/

/-- The file at the place of a list is a selected one. -/
def SelectedAt (page : GitCommit) (files : List String) (i : Nat) : Prop :=
  ∃ file : String, files[i]? = some file ∧ file ∈ page.selectedFiles

/-- The selected files are those with a checked box. -/
def Shows (page : GitCommit) : Prop :=
  ∀ file : String, file ∈ page.selectedFiles ↔ ∃ i : Nat, page.files[i]? = some file ∧ page.checked[i]? = some true

/-- The selected files are all in the list that arrives, and its places hold selected ones
    where they did before. -/
def Stays (page : GitCommit) : Event → Prop
  | .fetchFiles files =>
    (∀ file ∈ page.selectedFiles, file ∈ files.getD []) ∧
    ∀ i < (files.getD []).length, SelectedAt page (files.getD []) i ↔ SelectedAt page page.files i
  | _ => True

/-- A list names each file once. -/
def Listed : Event → Prop
  | .fetchFiles files => (files.getD []).Nodup
  | _ => True

structure Inv (page : GitCommit) : Prop where
  nodup : page.files.Nodup
  length : page.checked.length = page.files.length
  shows : Shows page

theorem place_unique {files : List String} (nodup : files.Nodup) {i j : Nat} {file : String} (first : files[i]? = some file)
    (second : files[j]? = some file) : i = j :=
  (List.getElem?_inj (List.getElem?_eq_some_iff.mp first).1 nodup).mp (first.trans second.symm)

theorem rendered_get? (checked : List Bool) (length i : Nat) :
    (rendered checked length)[i]? = some true ↔ i < length ∧ checked[i]? = some true := by
  by_cases inside : i < length
  · cases here : checked[i]? with
    | none => simp [rendered,inside,here]
    | some box => simp [rendered,inside,here]
  · simp [rendered,inside]

section
variable {page : GitCommit}

/-- The box of a file is checked where the file is selected. -/
theorem Inv.checked_iff (inv : Inv page) {i : Nat} {file : String} (here : page.files[i]? = some file) :
    page.checked[i]? = some true ↔ file ∈ page.selectedFiles := by
  constructor
  · intro checked
    exact (inv.shows file).mpr ⟨i,here,checked⟩
  · intro selected
    obtain ⟨j,there,checked⟩ := (inv.shows file).mp selected
    rwa [place_unique inv.nodup here there]

theorem Inv.checked_iff_selectedAt (inv : Inv page) (i : Nat) :
    page.checked[i]? = some true ↔ SelectedAt page page.files i := by
  cases here : page.files[i]? with
  | none =>
    have outside : page.checked[i]? = none := by
      rw [List.getElem?_eq_none_iff] at here ⊢
      rwa [inv.length]
    simp [SelectedAt,here,outside]
  | some file =>
    rw [inv.checked_iff here]
    simp [SelectedAt,here]

theorem fetched_shows_iff (inv : Inv page) {files : Option (List String)} (listed : (files.getD []).Nodup) :
    Shows (step page (.fetchFiles files)).1 ↔ Stays page (.fetchFiles files) := by
  have shows : Shows (step page (.fetchFiles files)).1 ↔ ∀ file : String, file ∈ page.selectedFiles ↔
      ∃ i : Nat, (files.getD [])[i]? = some file ∧ SelectedAt page page.files i := by
    apply forall_congr'
    intro file
    apply iff_congr Iff.rfl
    apply exists_congr
    intro i
    apply and_congr_right
    intro here
    have inside : i < (files.getD []).length := (List.getElem?_eq_some_iff.mp here).1
    simp only [step,rendered_get?,inside,true_and,inv.checked_iff_selectedAt]
  rw [shows]
  constructor
  · intro shown
    refine ⟨?_,?_⟩
    · intro file selected
      obtain ⟨i,here,-⟩ := (shown file).mp selected
      exact List.mem_of_getElem? here
    · intro i inside
      have here := List.getElem?_eq_getElem inside
      constructor
      · rintro ⟨file,there,selected⟩
        obtain ⟨j,same,at_⟩ := (shown file).mp selected
        rwa [place_unique listed there same]
      · intro at_
        exact ⟨_,here,(shown _).mpr ⟨i,here,at_⟩⟩
  · rintro ⟨all,places⟩ file
    constructor
    · intro selected
      obtain ⟨i,inside,here⟩ := List.getElem_of_mem (all file selected)
      have place : (files.getD [])[i]? = some file := by rw [List.getElem?_eq_getElem inside,here]
      exact ⟨i,place,(places i inside).mp ⟨file,place,selected⟩⟩
    · rintro ⟨i,here,at_⟩
      have inside : i < (files.getD []).length := (List.getElem?_eq_some_iff.mp here).1
      obtain ⟨other,there,selected⟩ := (places i inside).mpr at_
      rwa [Option.some.inj (here.symm.trans there)]

/-- A box that is clicked changes, and so does the selection of its file. -/
theorem change_keeps (inv : Inv page) (index : Nat) : Inv (step page (.change index)).1 := by
  simp only [step]
  cases here : page.files[index]? with
  | none => exact inv
  | some file =>
    have inside : index < page.checked.length := by
      rw [inv.length]
      exact (List.getElem?_eq_some_iff.mp here).1
    have modified : ∀ i : Nat, page.files[i]? = some file → ((page.checked.modify index not)[i]? = some true ↔
        file ∉ page.selectedFiles) := by
      intro i there
      obtain rfl := place_unique inv.nodup here there
      rw [← inv.checked_iff here,List.getElem?_modify,List.getElem?_eq_getElem inside]
      simp
    refine ⟨inv.nodup,by simpa using inv.length,?_⟩
    intro other
    rw [mem_handleCheckboxChange]
    by_cases same : other = file
    · subst same
      simp only [ne_eq,not_true_eq_false,iff_false]
      constructor
      · intro unselected
        exact ⟨index,here,(modified index here).mpr unselected⟩
      · rintro ⟨i,there,checked⟩
        exact (modified i there).mp checked
    · simp only [same,ne_eq,not_false_eq_true,iff_true]
      rw [inv.shows other]
      apply exists_congr
      intro i
      apply and_congr_right
      intro there
      have different : index ≠ i := by
        rintro rfl
        exact same (Option.some.inj (there.symm.trans here))
      simp only [List.getElem?_modify,different,↓reduceIte,id_map']

end

/-- The boxes show at any time in a run what a commit asks for, if and only if in each list
    that arrives the selected files are at places of selected ones. -/
theorem selection_shown_iff (events : List Event) (listed : ∀ e ∈ events, Listed e) :
    Always step Shows mounted events ↔ Meets step Stays mounted events := by
  have start : Inv mounted := ⟨List.nodup_nil,rfl,fun file => by simp [mounted]⟩
  refine always_iff_meets_of_fit (fun _ inv => inv.shows) ?_ ?_ start listed
  · intro page e fit inv stays
    cases e with
    | fetchFiles files => exact ⟨fit,by simp [step,rendered],(fetched_shows_iff inv fit).mpr stays⟩
    | change index => exact change_keeps inv index
    | _ => exact ⟨inv.nodup,inv.length,inv.shows⟩
  · intro page e fit inv shows
    cases e with
    | fetchFiles files => exact (fetched_shows_iff inv fit).mp shows
    | _ => trivial

/-- A file is committed: its box stays, checked, for the next one, and the file selected. -/
theorem committed_unshown : ¬ Always step Shows mounted
    [.fetchFiles (some ["a.py","b.py"]),.change 0,.handleCommit,.fetchFiles (some ["b.py"])] := by
  intro always
  have stays := (selection_shown_iff
    [.fetchFiles (some ["a.py","b.py"]),.change 0,.handleCommit,.fetchFiles (some ["b.py"])]
    (by simp [Listed])).mp always
  have there : "a.py" ∈ ["b.py"] := stays.2.2.2.1.1 "a.py" (by decide)
  exact absurd there (by decide)

end Zasper.CommitSelection
