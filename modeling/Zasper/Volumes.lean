import Zasper.SavedFiles

/-!
# Volumes

Machines whose file calls may fail. A `Host` has a working directory and knows no
file without a name; on it `getSafePath` resolves the paths below `HomeDir`, where
`HomeDir` begins its own absolute path (`safePath_below`). A `Volume` says what the
calls that change files leave behind. Links are allowed: a place may lead to the
file of another place.
-/
namespace Zasper.Volumes
open Zasper.Strings Zasper.Paths Zasper.Programs Zasper.OperatingSystem Zasper.ContentManager Zasper.SavedFiles
open Zasper.OpenNotebook (safePath)
set_option linter.unusedSimpArgs false

structure Host (Files : Type) extends FileSystem Files where
  /-- The working directory of the process. -/
  cwd : String
  rooted : isAbs cwd = true
  getwd_eq : ∀ files, (answer files .getwd).2 = .ok cwd
  lstat_empty : ∀ files, ∃ e, (answer files (.lstat "")).2 = .error e

theorem Host.run_getSafePath {Files : Type} (host : Host Files) (home path : String) (files : Files) :
    (getSafePath home path).run host.answer files = (files,.ok (safePath host.cwd home path)) :=
  OpenNotebook.run_getSafePath_of (Prod.ext (host.kept files .getwd rfl) (host.getwd_eq files)) home path

/-! ## Paths below the project -/

/-- A path of the project as an absolute one, whether or not it is accepted. -/
def below (cwd home path : String) : String := absPath cwd (join [home,clean path])

/-- The place of the project. -/
def root (cwd home : String) : Place := names (absPath cwd home)

/-- `HomeDir` begins its own absolute path. -/
def Resolves (cwd home : String) : Prop := hasPrefix (absPath cwd home) home = true

instance (cwd home : String) : Decidable (Resolves cwd home) := inferInstanceAs (Decidable (_ = true))

/-- What begins an absolute path is absolute, or empty. -/
theorem isAbs_of_hasPrefix {path start : String} (rooted : isAbs path = true) (starts : hasPrefix path start = true)
    (given : start ≠ "") : isAbs start = true := by
  obtain ⟨rest,text⟩ := hasPrefix_iff.mp starts
  have same : path = start ++ String.ofList rest := by
    rw [← String.toList_inj]
    simpa using text.symm
  rw [same,isAbs_append given] at rooted
  exact rooted

/-- An accepted path starts at an absolute `HomeDir`, or at an empty one. -/
theorem isAbs_home {cwd home path : String} (rooted : isAbs cwd = true) (safe : hasPrefix (absPath cwd path) home = true)
    (given : home ≠ "") : isAbs home = true :=
  isAbs_of_hasPrefix (absolute_absPath rooted path).rooted safe given

/-- The names of a path of the project follow those of `HomeDir`. -/
theorem names_below {cwd home path : String} (rooted : isAbs cwd = true) (noUp : dotdot ∉ names path)
    (starts : isAbs home = true ∨ home = "" ∧ isAbs path = false) :
    names (below cwd home path) = root cwd home ++ names path := by
  have cleaned : names (clean path) = names path := by rw [names_clean,resolve_of_noUp _ noUp]
  have joined : names (join [home,clean path]) = resolve (startsAbs [home,clean path]) (names home) ++ names path := by
    rw [names_join]
    simp [cleaned,resolve_append _ _ noUp]
  rcases starts with absolute | ⟨rfl,relative⟩
  · have starts : startsAbs [home,clean path] = true := startsAbs_rooted absolute _
    have joinedRooted : isAbs (join [home,clean path]) = true := by rw [isAbs_join,starts]
    rw [root,below,abs_of_absolute joinedRooted,abs_of_absolute absolute,names_clean,names_clean,joinedRooted,absolute,
      joined,starts,resolve_append _ _ noUp,resolve_of_noUp _ (resolve_rooted _)]
  · have joinedRelative : isAbs (join ["",clean path]) = false := by
      rw [isAbs_join]
      by_cases none : clean path = "" <;> simp [startsAbs,none,relative]
    have empty : isAbs "" = false := by decide
    have nothing : resolve (startsAbs ["",clean path]) (names "") = [] := by simp [resolve]
    have starts (rest : String) : startsAbs [cwd,rest] = true := startsAbs_rooted rooted _
    rw [nothing,List.nil_append] at joined
    simp only [root,below,absPath,joinedRelative,empty,Bool.false_eq_true,↓reduceIte,names_join,List.flatMap_cons,
      List.flatMap_nil,List.append_nil,joined,names_empty,starts]
    exact resolve_append _ _ noUp

/-- An empty `HomeDir` leaves an absolute path where it is. -/
theorem names_below_empty {cwd path : String} (noUp : dotdot ∉ names path) (absolute : isAbs path = true) :
    names (below cwd "" path) = names path := by
  have some : clean path ≠ "" := by
    intro none
    have rooted : isAbs (clean path) = true := by rw [isAbs_clean,absolute]
    rw [none] at rooted
    exact absurd rooted (by decide)
  have starts : startsAbs ["",clean path] = true := by simp [startsAbs,some,absolute]
  have joinedRooted : isAbs (join ["",clean path]) = true := by rw [isAbs_join,starts]
  rw [below,abs_of_absolute joinedRooted,names_clean,joinedRooted,names_join,starts]
  simp [resolve_of_noUp _ noUp]

/-- The place of an entry of a directory whose path is accepted. -/
theorem names_below_entry {cwd home path : String} (rooted : isAbs cwd = true)
    (safe : hasPrefix (below cwd home path) home = true) (noUp : dotdot ∉ names path) (e : EntryName) :
    names (below cwd home (join [path,e.name])) = names (below cwd home path) ++ [e.name.toList] := by
  have whole : dotdot ∉ [path,e.name].flatMap names := by simpa using ⟨noUp,e.noUp⟩
  have joined : names (join [path,e.name]) = names path ++ [e.name.toList] := by
    rw [names_join,resolve_of_noUp _ whole]
    simp [e.names_eq]
  have joinedNoUp : dotdot ∉ names (join [path,e.name]) := noUp_join (by simpa using ⟨noUp,e.noUp⟩)
  by_cases given : home = ""
  · subst given
    by_cases absolute : isAbs path = true
    · have joinedRooted : isAbs (join [path,e.name]) = true := by
        rw [isAbs_join]
        exact startsAbs_rooted absolute _
      rw [names_below_empty joinedNoUp joinedRooted,names_below_empty noUp absolute,joined]
    · have relative : isAbs path = false := Bool.eq_false_iff.mpr absolute
      have joinedRelative : isAbs (join [path,e.name]) = false := by
        rw [isAbs_join]
        by_cases none : path = "" <;> simp [startsAbs,none,relative,e.ne_empty,e.isAbs_eq]
      rw [names_below rooted joinedNoUp (.inr ⟨rfl,joinedRelative⟩),names_below rooted noUp (.inr ⟨rfl,relative⟩),joined,
        List.append_assoc]
  · have absolute : isAbs home = true := isAbs_home rooted safe given
    rw [names_below rooted joinedNoUp (.inl absolute),names_below rooted noUp (.inl absolute),joined,List.append_assoc]

theorem absolute_below {cwd : String} (rooted : isAbs cwd = true) (home path : String) : Absolute (below cwd home path) :=
  absolute_absPath rooted _

/-- A path that is accepted is the absolute path of its place. -/
theorem safePath_eq {cwd home path : String} (accepted : safePath cwd home path ≠ "") :
    hasPrefix (below cwd home path) home = true ∧ safePath cwd home path = below cwd home path := by
  by_cases safe : hasPrefix (below cwd home path) home = true
  · exact ⟨safe,if_pos safe⟩
  · exact absurd (if_neg safe) accepted

theorem absolute_safePath {cwd home path : String} (rooted : isAbs cwd = true) (accepted : safePath cwd home path ≠ "") :
    Absolute (safePath cwd home path) := by
  rw [(safePath_eq accepted).2]
  exact absolute_below rooted home path

/-- Where `HomeDir` begins its own absolute path, the paths of the project are accepted. -/
theorem safePath_below {cwd home path : String} (rooted : isAbs cwd = true) (resolves : Resolves cwd home)
    (relative : isAbs path = false) (noUp : dotdot ∉ names path) :
    safePath cwd home path = render true (root cwd home ++ names path) := by
  have starts : isAbs home = true ∨ home = "" ∧ isAbs path = false := by
    by_cases given : home = ""
    · exact .inr ⟨given,relative⟩
    · exact .inl (isAbs_home rooted resolves given)
  have placed := names_below rooted noUp starts
  have absolute := absolute_below rooted home path
  have inside : hasPrefix (below cwd home path) (absPath cwd home) = true := by
    apply hasPrefix_of_below (absolute_absPath rooted home) absolute
    rw [Below,placed]
    exact List.prefix_append ..
  have safe : hasPrefix (below cwd home path) home = true :=
    hasPrefix_iff.mpr ((hasPrefix_iff.mp resolves).trans (hasPrefix_iff.mp inside))
  have accepted : safePath cwd home path = below cwd home path := if_pos safe
  rw [accepted,← absolute.rendered,placed]

/-- The path of the project itself is accepted only where `HomeDir` begins its own
    absolute path. -/
theorem safePath_dot {cwd home : String} (rooted : isAbs cwd = true) (stray : ¬ Resolves cwd home) :
    safePath cwd home "." = "" := by
  by_contra accepted
  obtain ⟨safe,-⟩ := safePath_eq accepted
  have given : home ≠ "" := by
    rintro rfl
    exact stray (hasPrefix_iff.mpr List.nil_prefix)
  have absolute : isAbs home = true := isAbs_home rooted safe given
  have dotNames : names "." = [] := by decide
  have placed := @names_below cwd home "." rooted (by simp [dotNames]) (.inl absolute)
  have same : below cwd home "." = absPath cwd home :=
    absolute_ext (absolute_below rooted home ".") (absolute_absPath rooted home) (by simpa [dotNames,root] using placed)
  rw [same] at safe
  exact stray safe

/-! ## Volumes -/

/-- A place lies below another one, by its names. -/
def Above (old new : Place) : Prop := old <+: new ∧ old ≠ new

/-- Files of which is known what the calls leave behind. An entry is a file, a directory
    or a link, told from others as the system does. -/
structure Volume (Files Entry : Type) extends Host Files where
  /-- The entry at a place, which is no link that is followed. -/
  entryAt : Files → Place → Option Entry
  /-- The bytes of the file that a place leads to. -/
  bytesAt : Files → Place → Option (List UInt8)
  /-- The places that lead to the file that is written at a place. -/
  leads : Files → Place → Place → Prop
  lstat_entry : ∀ files path info, Absolute path → (answer files (.lstat path)).2 = .ok info →
    (entryAt files (names path)).isSome = true
  readFile_bytes : ∀ files path bytes, Absolute path → (answer files (.readFile path)).2 = .ok bytes →
    bytesAt files (names path) = some bytes
  writeFile_written : ∀ files path bytes place, (answer files (.writeFile path bytes)).2 = none →
    leads files (names (absPath cwd path)) place → bytesAt (answer files (.writeFile path bytes)).1 place = some bytes
  writeFile_others : ∀ files path bytes place, (answer files (.writeFile path bytes)).2 = none →
    ¬ leads files (names (absPath cwd path)) place →
    bytesAt (answer files (.writeFile path bytes)).1 place = bytesAt files place
  remove_empty : ∀ files, (answer files (.remove "")).2 ≠ none
  remove_gone : ∀ files path, Absolute path → (answer files (.remove path)).2 = none →
    entryAt (answer files (.remove path)).1 (names path) = none
  remove_failed : ∀ files path, (answer files (.remove path)).2 ≠ none →
    entryAt (answer files (.remove path)).1 = entryAt files
  rename_empty : ∀ files old new, (answer files (.rename old new)).2 = none → old ≠ "" ∧ new ≠ ""
  rename_failed : ∀ files old new, (answer files (.rename old new)).2 ≠ none →
    entryAt (answer files (.rename old new)).1 = entryAt files
  /-- Two names of one entry are left alone. -/
  rename_same : ∀ files old new, Absolute old → Absolute new → entryAt files (names old) = entryAt files (names new) →
    entryAt (answer files (.rename old new)).1 = entryAt files
  rename_moved : ∀ files old new, Absolute old → Absolute new → (answer files (.rename old new)).2 = none →
    ¬ Above (names old) (names new) → (entryAt files (names old)).isSome = true ∧
      entryAt (answer files (.rename old new)).1 (names new) = entryAt files (names old)
  /-- A link that is moved into the directory that it leads to is no longer found there. -/
  rename_within : ∀ files old new, Absolute old → Absolute new → (answer files (.rename old new)).2 = none →
    Above (names old) (names new) → entryAt files (names old) ≠ entryAt files (names new) →
      entryAt (answer files (.rename old new)).1 (names new) = none
  mkdirAll_empty : ∀ files, (answer files (.mkdirAll "")).2 ≠ none
  mkdirAll_made : ∀ files path, Absolute path → (answer files (.mkdirAll path)).2 = none →
    (entryAt (answer files (.mkdirAll path)).1 (names path)).isSome = true
  mkdirAll_failed : ∀ files path, Absolute path → (answer files (.mkdirAll path)).2 ≠ none →
    entryAt (answer files (.mkdirAll path)).1 (names path) = entryAt files (names path)

theorem absolute_user : Absolute "/home/u" := by decide

/-- The files of `flatAnswer`: each place leads to a file of its own, and files are only
    written. -/
def flatVolume (cwd : String) (absolute : Absolute cwd) : Volume (Place → Option (List UInt8)) (List UInt8) where
  answer := flatAnswer cwd
  kept := (flatDisk cwd absolute).kept
  cwd := cwd
  rooted := absolute.rooted
  getwd_eq := (flatDisk cwd absolute).getwd_eq
  lstat_empty := (flatDisk cwd absolute).lstat_empty
  entryAt files place := files place
  bytesAt files place := files place
  leads _ place other := other = place
  lstat_entry files path info rooted found := by
    have here := absPath_of_absolute rooted cwd
    dsimp only [flatAnswer] at found
    rw [here] at found
    cases file : files (names path) with
    | none => rw [file] at found; cases found
    | some bytes => rfl
  readFile_bytes files path bytes rooted := ((flatDisk cwd absolute).readFile_iff files path bytes rooted).mp
  writeFile_written := (flatDisk cwd absolute).writeFile_written
  writeFile_others := (flatDisk cwd absolute).writeFile_others
  remove_empty _ := by simp [flatAnswer]
  remove_gone _ _ _ removed := by simp [flatAnswer] at removed
  remove_failed _ _ _ := rfl
  rename_empty _ _ _ renamed := by simp [flatAnswer] at renamed
  rename_failed _ _ _ _ := rfl
  rename_same _ _ _ _ _ _ := rfl
  rename_moved _ _ _ _ _ renamed := by simp [flatAnswer] at renamed
  rename_within _ _ _ _ _ renamed := by simp [flatAnswer] at renamed
  mkdirAll_empty _ := by simp [flatAnswer]
  mkdirAll_made _ _ _ made := by simp [flatAnswer] at made
  mkdirAll_failed _ _ _ _ := rfl

end Zasper.Volumes
