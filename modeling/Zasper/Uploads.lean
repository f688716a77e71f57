import Zasper.Http
import Zasper.Volumes

/-!
# Uploads

Where the upload of a file creates it. The name is refused where it has a separator or
`..` in it; the parent path may have both, and what is compared with the project's
directory is the destination in its shortest form. A prefix that ends in a separator is
a prefix of the components (`below_of_hasPrefix`), so nothing is created elsewhere
(`created_confined`); `passes_iff` says what is let through.
-/
namespace Zasper.Uploads
open Zasper.Strings Zasper.Paths Zasper.Programs Zasper.OperatingSystem Zasper.ContentApi Zasper.SavedFiles
open Zasper.Volumes (absolute_user)
set_option linter.unusedSimpArgs false

/-! ## Forms -/

/-- A file of a form that could be opened. -/
structure FormFile where
  filename : String
  /-- What can be read of it. -/
  bytes : List UInt8
  /-- Why not all of it could be read. -/
  readError : Option OsError

structure Form where
  /-- Those of the query come before those of the body. -/
  values : List (String × String)
  files : List (String × Option FormFile)

/-- The first file with the name, where it can be opened. -/
def Form.formFile (form : Form) (name : String) : Option FormFile :=
  (form.files.find? (fun file => file.1 = name)).bind Prod.snd

def Form.formValue (form : Form) (name : String) : String := Http.valueOf form.values name

/-! ## The handler -/

def saveUpload (absDst : String) (file : FormFile) : Os Response := .call (.openFile absDst) (fun
  | some _ => pure (errorResponse 500 "Unable to create file" .none)
  | none => .call (.writeFile absDst file.bytes) (fun err =>
    if err.isSome || file.readError.isSome then pure (errorResponse 500 "Error saving file" .none)
    else pure ⟨200,.empty⟩))

/-- Whether the destination is the directory or has it as a prefix. -/
def passes (absBaseDir absDst : String) : Bool := hasPrefix absDst (absBaseDir ++ "/") || absDst = absBaseDir

/-- `form` is what the request's form was read as; there is none where it could not be. -/
def uploadFileHandler (home : String) (form : Option Form) : Os Response :=
  match form with
  | none => pure (errorResponse 400 "Unable to parse form" .none)
  | some form =>
    match form.formFile "file" with
    | none => pure (errorResponse 400 "Unable to read file" .none)
    | some file =>
      let fileName := file.filename
      let parentPath := form.formValue "parentPath"
      if contains fileName "/" || contains fileName "\\" || contains fileName ".." then
        pure (errorResponse 400 "Invalid file name" .none)
      else do
        match ← filepathAbs home with
        | .error _ => pure (errorResponse 500 "Unable to resolve base directory" .none)
        | .ok absBaseDir =>
          match ← filepathAbs (join [absBaseDir,parentPath,fileName]) with
          | .error _ => pure (errorResponse 400 "Unable to resolve destination path" .none)
          | .ok absDst =>
            if !passes absBaseDir absDst then pure (errorResponse 400 "Invalid destination path" .none)
            else saveUpload absDst file

/-! ## Components -/

def components (path : String) : List (List Char) := (cutAt '/' path.toList).filter (· ≠ [])

/-- The path is the directory or lies in it, component by component, and none of its
    components leads to a directory that is already named. -/
structure Confined (dir path : String) : Prop where
  below : components dir <+: components path
  noDot : dot ∉ components path
  noUp : dotdot ∉ components path

instance (dir path : String) : Decidable (Confined dir path) :=
  decidable_of_iff (components dir <+: components path ∧ dot ∉ components path ∧ dotdot ∉ components path)
    ⟨fun h => ⟨h.1,h.2.1,h.2.2⟩,fun h => ⟨h.below,h.noDot,h.noUp⟩⟩

/-- The components of an absolute path in its shortest form are its names. -/
theorem components_eq {path : String} (absolute : Absolute path) : components path = names path := by
  by_cases given : names path = []
  · obtain rfl := absolute.eq_root given
    decide
  · have kept : ∀ n ∈ names path, n ≠ [] := fun n member => (names_name path n member).1
    rw [components,absolute.pieces given,List.filter_cons_of_neg (by simp),List.filter_eq_self]
    simpa using kept

theorem confined_of_below {dir path : String} (absoluteDir : Absolute dir) (absolute : Absolute path)
    (below : Below dir path) : Confined dir path := by
  have same := components_eq absolute
  constructor
  · rw [components_eq absoluteDir,same]
    exact below
  · rw [same]
    exact fun member => (names_name path dot member).2.1 rfl
  · rw [same]
    exact absolute.noUp

/-- A prefix that ends in a separator is a prefix of the names. -/
theorem below_of_hasPrefix {dir path : String} (starts : hasPrefix path (dir ++ "/") = true) : Below dir path := by
  obtain ⟨rest,text⟩ := hasPrefix_iff.mp starts
  have whole : path = dir ++ "/" ++ String.ofList rest := by
    rw [← String.toList_inj,← text]
    simp
  rw [Below,whole,names_slash]
  exact List.prefix_append ..

/-- The destination passes if and only if it is the directory or lies in it; nothing
    but itself passes for the root. -/
theorem passes_iff {dir path : String} (absoluteDir : Absolute dir) (absolute : Absolute path) :
    passes dir path = true ↔ Below dir path ∧ (dir = "/" → path = "/") := by
  constructor
  · intro passed
    rcases (Bool.or_eq_true _ _).mp passed with starts | same
    · refine ⟨below_of_hasPrefix starts,?_⟩
      rintro rfl
      -- a path in its shortest form does not start with two separators
      by_contra other
      have given : names path ≠ [] := fun none => other (absolute.eq_root none)
      obtain ⟨rest,text⟩ := hasPrefix_iff.mp starts
      rw [absolute.text] at text
      have second : joinNames (names path) = '/' :: rest := by simpa using text.symm
      have relative := isAbs_render false (names_name path)
      rw [render,if_neg Bool.false_ne_true,if_neg given,second] at relative
      exact absurd relative (by simp [isAbs])
    · obtain rfl : path = dir := by simpa using same
      exact ⟨List.prefix_rfl,id⟩
  · rintro ⟨⟨rest,split⟩,root⟩
    by_cases none : rest = []
    · have same : path = dir := absolute_ext absolute absoluteDir (by rw [← split,none,List.append_nil])
      simp [passes,same]
    · have given : names dir ≠ [] := by
        intro empty
        have nothing : names path = [] := by
          rw [root (absoluteDir.eq_root empty)]
          decide
        rw [empty,nothing] at split
        exact none (by simpa using split)
      have starts : hasPrefix path (dir ++ "/") = true := by
        refine hasPrefix_iff.mpr ⟨joinNames rest,?_⟩
        rw [absolute.text,← split,joinNames_append given none,String.toList_append,absoluteDir.text]
        simp
      simp [passes,starts]

/-! ## What is created -/

/-- A system on which the working directory, where it can be told, is absolute. -/
structure Machine (Files : Type) extends FileSystem Files where
  rooted : ∀ files wd, (answer files .getwd).2 = .ok wd → isAbs wd = true

section
variable {Files : Type} (machine : Machine Files) {files : Files}

/-- The result of `filepath.Abs` is an absolute path. -/
theorem absolute_filepathAbs {path abspath : String}
    (resolved : ((filepathAbs path).run machine.answer files).2 = .ok (.ok abspath)) : Absolute abspath := by
  unfold filepathAbs at resolved
  by_cases rooted : isAbs path = true
  · rw [if_pos rooted] at resolved
    obtain rfl : clean path = abspath := by simpa using resolved
    exact absolute_clean rooted
  · rw [if_neg rooted,Program.run_call] at resolved
    cases reply : (machine.answer files .getwd).2 with
    | error e =>
      rw [reply] at resolved
      cases resolved
    | ok wd =>
      rw [reply] at resolved
      obtain rfl : join [wd,path] = abspath := by simpa using resolved
      have absolute := absolute_absPath (machine.rooted files wd reply) path
      rwa [absPath,if_neg rooted] at absolute

theorem run_filepathAbs (path : String) : ((filepathAbs path).run machine.answer files).1 = files := by
  unfold filepathAbs
  by_cases rooted : isAbs path = true
  · rw [if_pos rooted,Program.run_pure]
  · rw [if_neg rooted,Program.run_call]
    cases (machine.answer files .getwd).2 <;> exact machine.kept files .getwd rfl

theorem calls_filepathAbs (path : String) : (filepathAbs path).Calls (fun c => c = .getwd) := by
  unfold filepathAbs
  by_cases rooted : isAbs path = true
  · rw [if_pos rooted]
    trivial
  · rw [if_neg rooted]
    refine ⟨rfl,?_⟩
    intro reply
    cases reply <;> trivial

theorem calls_saveUpload (absDst : String) (file : FormFile) :
    (saveUpload absDst file).Calls (fun c => c.paths = [absDst]) := by
  refine ⟨rfl,?_⟩
  intro opened
  cases opened with
  | some e => trivial
  | none =>
    refine ⟨rfl,?_⟩
    intro err
    dsimp only
    split_ifs <;> trivial

/-- Every call of an upload asks for the working directory or is made on one path, which
    lies in the directory. -/
theorem made_upload {home : String} {form : Option Form} {c : Call}
    (member : c ∈ (uploadFileHandler home form).made machine.answer files) :
    c = .getwd ∨ ∃ absBaseDir absDst, ((filepathAbs home).run machine.answer files).2 = .ok (.ok absBaseDir) ∧
      Confined absBaseDir absDst ∧ c.paths = [absDst] := by
  unfold uploadFileHandler at member
  cases form with
  | none => exact absurd member List.not_mem_nil
  | some form =>
    dsimp only at member
    cases chosen : form.formFile "file" with
    | none =>
      rw [chosen] at member
      exact absurd member List.not_mem_nil
    | some file =>
      rw [chosen] at member
      dsimp only at member
      split_ifs at member with refused
      · exact absurd member List.not_mem_nil
      · rcases Program.made_bind member with asked | ⟨based,resolved,member⟩
        · exact .inl (Program.of_made (calls_filepathAbs home) asked)
        · cases based with
          | error e => exact absurd member List.not_mem_nil
          | ok absBaseDir =>
            rcases Program.made_bind member with asked | ⟨placed,destined,member⟩
            · exact .inl (Program.of_made (calls_filepathAbs _) asked)
            · cases placed with
              | error e => exact absurd member List.not_mem_nil
              | ok absDst =>
                dsimp only at member
                split_ifs at member with outside
                · exact absurd member List.not_mem_nil
                · have passed : passes absBaseDir absDst = true := by simpa using outside
                  have absoluteDir := absolute_filepathAbs machine resolved
                  have absolute := absolute_filepathAbs machine destined
                  have below := ((passes_iff absoluteDir absolute).mp passed).1
                  exact .inr ⟨absBaseDir,absDst,resolved,confined_of_below absoluteDir absolute below,
                    Program.of_made (calls_saveUpload absDst file) member⟩

/-- What an upload creates is the directory or lies in it. -/
theorem created_confined {home : String} {form : Option Form} {path : String}
    (created : .openFile path ∈ (uploadFileHandler home form).made machine.answer files) :
    ∃ absBaseDir, (filepathAbs home).run machine.answer files = (files,.ok (.ok absBaseDir)) ∧
      Confined absBaseDir path := by
  rcases made_upload machine created with asked | ⟨absBaseDir,absDst,resolved,confined,single⟩
  · cases asked
  · obtain rfl : path = absDst := by simpa [Call.paths] using single
    exact ⟨absBaseDir,Prod.ext (run_filepathAbs machine home) resolved,confined⟩

end

/-- A machine whose process works in the directory of a user. -/
def userMachine : Machine (Place → Option (List UInt8)) where
  answer := flatAnswer "/home/u"
  kept := (flatDisk "/home/u" absolute_user).kept
  rooted _ wd asked := by
    obtain rfl : "/home/u" = wd := Except.ok.inj asked
    decide

def climbing : Form := ⟨[("parentPath","a/../..//q/./b")],[("file",some ⟨"c.txt",[],none⟩)]⟩

/-- The parent path goes up and comes back. -/
theorem created_climbing : ∃ absBaseDir,
    (filepathAbs "q").run userMachine.answer (fun _ => none) = (fun _ => none,.ok (.ok absBaseDir)) ∧
      Confined absBaseDir "/home/u/q/b/c.txt" :=
  @created_confined _ userMachine _ "q" (some climbing) "/home/u/q/b/c.txt" (by decide)

end Zasper.Uploads
