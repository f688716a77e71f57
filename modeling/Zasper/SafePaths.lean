import Zasper.Confinement

/-!
# Safe paths

What `getSafePath` lets through. It compares texts: a path that has `HomeDir` as a
prefix lies in the directory, or beside it in a directory with a longer name. The
second happens where the path goes up and comes down again beside what it left
(`exact_iff`); the handlers let no path through that goes up (`exact_of_noUp`).
-/
namespace Zasper.SafePaths
open Zasper.Strings Zasper.Paths Zasper.Programs Zasper.OperatingSystem Zasper.ContentManager Zasper.Confinement
set_option linter.unusedSimpArgs false

/-- The path in the directory, where it is the directory or lies in it, component by
    component, and the empty path elsewhere. -/
def containedPath (home path : String) : String :=
  if Below home (join [home,clean path]) then join [home,clean path] else ""

/-- `getSafePath` is the containment check. -/
def Exact (home path : String) : Prop := getSafePath home path = pure (containedPath home path)

/-- Its own `..` resolved, the path goes up, and down again by the names that it left
    but for the last one, which it makes longer. -/
def GoesBeside (home path : String) : Prop :=
  isAbs path = false ∧ ∃ ups dirs last more rest, more ≠ [] ∧ (names home).rtake ups = dirs ++ [last] ∧
    resolve false (names path) = List.replicate ups dotdot ++ (dirs ++ (last ++ more) :: rest)

section
variable (home : HomeDir)

theorem not_beside_of_starts {ns ms : List (List Char)} (starts : ns <+: ms) : ¬ Beside ns ms := by
  rintro ⟨dirs,last,more,rest,given,split,beside⟩
  obtain ⟨tail,text⟩ := starts
  rw [split,beside,List.append_assoc] at text
  have same := List.append_cancel_left text
  simp [given] at same

/-- A path that lies beside the directory is the only one that is let through wrongly. -/
theorem exact_iff_beside (path : String) :
    Exact home.path path ↔ ¬ Beside (names home.path) (names (join [home.path,clean path])) := by
  have absolute := absolute_join home.absolute [clean path]
  have prefixed := hasPrefix_iff_names home.absolute absolute
  rw [Exact,getSafePath_eq,containedPath]
  by_cases below : Below home.path (join [home.path,clean path])
  · have passes := prefixed.mpr (.inl below)
    simp only [passes,below,↓reduceIte,true_iff]
    exact not_beside_of_starts below
  · by_cases beside : Beside (names home.path) (names (join [home.path,clean path]))
    · have passes := prefixed.mpr (.inr beside)
      simp only [passes,below,beside,↓reduceIte,not_true_eq_false,iff_false]
      intro same
      exact absolute.ne_empty (Program.done.inj same)
    · have refused : hasPrefix (join [home.path,clean path]) home.path = false :=
        Bool.eq_false_iff.mpr (fun passes => (prefixed.mp passes).elim below beside)
      simp [refused,below,beside]

/-- The names of a path of the directory: its own `..` drop names of the directory. -/
theorem names_join_clean {path : String} {ups : Nat} {downs : List (List Char)} (noUp : dotdot ∉ downs)
    (shape : resolve (isAbs path) (names path) = List.replicate ups dotdot ++ downs) :
    names (join [home.path,clean path]) = (names home.path).rdrop ups ++ downs := by
  rw [names_join,startsAbs_rooted home.absolute.rooted]
  simpa [shape] using resolve_up home.absolute.noUp noUp ups

/-- What goes up is split from what follows in one way only. -/
theorem up_unique {ups ups' : Nat} {downs others : List (List Char)} (noUp : dotdot ∉ downs)
    (down : others.head? ≠ some dotdot)
    (same : List.replicate ups dotdot ++ downs = List.replicate ups' dotdot ++ others) : ups = ups' ∧ downs = others := by
  induction ups generalizing ups' with
  | zero =>
    cases ups' with
    | zero => exact ⟨rfl,same⟩
    | succ ups' =>
      have first : downs = dotdot :: (List.replicate ups' dotdot ++ others) := same
      exact absurd (by simp [first]) noUp
  | succ ups ih =>
    cases ups' with
    | zero =>
      have first : others = dotdot :: (List.replicate ups dotdot ++ downs) := same.symm
      exact absurd (by simp [first]) down
    | succ ups' =>
      obtain ⟨rfl,later⟩ := ih (List.cons.inj same).2
      exact ⟨rfl,later⟩

theorem longer_ne_dotdot {last more : List Char} (name : Name last) (given : more ≠ []) : last ++ more ≠ dotdot := by
  intro same
  obtain ⟨c,cs,rfl⟩ := List.exists_cons_of_ne_nil name.1
  obtain ⟨rfl,rest⟩ : c = '.' ∧ cs ++ more = ['.'] := by simpa [dotdot] using same
  cases cs with
  | nil => exact name.2.1 rfl
  | cons d ds =>
    obtain ⟨-,empty⟩ : d = '.' ∧ ds ++ more = [] := by simpa using rest
    exact given (List.append_eq_nil_iff.mp empty).2

theorem beside_iff (path : String) :
    Beside (names home.path) (names (join [home.path,clean path])) ↔ GoesBeside home.path path := by
  obtain ⟨ups,downs,shape,noUp⟩ := resolve_shape (isAbs path) (names path)
  have joined := names_join_clean home noUp shape
  constructor
  · rintro beside
    rw [joined] at beside
    cases ups with
    | zero =>
      rw [List.rdrop_zero] at beside
      exact absurd beside (not_beside_of_starts (List.prefix_append ..))
    | succ ups =>
      have relative : isAbs path = false := by
        by_contra rooted
        rw [Bool.not_eq_false] at rooted
        have none := resolve_rooted (names path)
        rw [rooted] at shape
        rw [shape] at none
        exact none (by simp [List.replicate_succ])
      rw [relative] at shape
      obtain ⟨dirs,last,more,rest,given,split,besides⟩ := beside
      have kept : dirs = dirs.rdrop ups ++ dirs.rtake ups := (List.take_append_drop ..).symm
      rw [split,List.rdrop_concat_succ] at besides
      have down : downs = dirs.rtake ups ++ (last ++ more) :: rest := by
        apply @List.append_cancel_left _ (dirs.rdrop ups)
        rw [besides,← List.append_assoc,← kept]
      exact ⟨relative,ups+1,dirs.rtake ups,last,more,rest,given,by rw [split,List.rtake_concat_succ],by rw [shape,down]⟩
  · rintro ⟨relative,ups',dirs,last,more,rest,given,left,resolved⟩
    have parted : names home.path = (names home.path).rdrop ups' ++ (dirs ++ [last]) := by
      rw [← left]
      exact (List.take_append_drop ..).symm
    have ofHome : ∀ n ∈ dirs ++ [last], n ∈ names home.path := fun n member => by rw [parted]; simp [member]
    have name : Name last := names_name _ last (ofHome last (by simp))
    have down : (dirs ++ (last ++ more) :: rest).head? ≠ some dotdot := by
      cases dirs with
      | nil => simpa using longer_ne_dotdot name given
      | cons d ds =>
        have other : d ≠ dotdot := fun same => home.absolute.noUp (same ▸ ofHome d (by simp))
        simpa using other
    rw [relative,resolved] at shape
    obtain ⟨rfl,rfl⟩ := up_unique noUp down shape.symm
    refine ⟨(names home.path).rdrop ups ++ dirs,last,more,rest,given,?_,?_⟩
    · rw [List.append_assoc]
      exact parted
    · rw [joined,List.append_assoc]

/-- It is one for every path that the handlers let through. -/
theorem exact_of_noUp {path : String} (noUp : dotdot ∉ names path) : Exact home.path path := by
  rw [exact_iff_beside]
  apply not_beside_of_starts
  have cleaned : dotdot ∉ names (clean path) := by rwa [names_clean,resolve_of_noUp _ noUp]
  exact below_join home.absolute (by simpa using cleaned)

end

end Zasper.SafePaths
