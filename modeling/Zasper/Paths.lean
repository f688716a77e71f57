import Mathlib.Data.List.DropRight
import Mathlib.Data.List.Infix
import Zasper.Strings

/-!
# File paths

Slash-separated paths and the lexical operations on them. The names of a path are
its components without empty ones and without `.`; `clean` resolves `..` among
them. A path lies in a directory when the directory's names are a prefix of its
own.
-/
namespace Zasper.Paths
open Zasper.Strings
set_option linter.unusedSimpArgs false

/-- The pieces of a list between the separators. -/
def cutAt (sep : Char) : List Char → List (List Char)
  | [] => [[]]
  | c :: rest =>
    if c = sep then [] :: cutAt sep rest
    else
      match cutAt sep rest with
      | [] => [[c]]
      | piece :: pieces => (c :: piece) :: pieces

def dot : List Char := ['.']
def dotdot : List Char := ['.','.']

/-- A component that is written in a path. -/
def Name (n : List Char) : Prop := n ≠ [] ∧ n ≠ dot ∧ '/' ∉ n

instance (n : List Char) : Decidable (Name n) := inferInstanceAs (Decidable (_ ∧ _ ∧ _))

def names (path : String) : List (List Char) :=
  (cutAt '/' path.toList).filter (fun n => n ≠ [] ∧ n ≠ dot)

def isAbs (path : String) : Bool := path.toList.head? = some '/'

/-- What `..` does to a stack of names: the last name goes, and `..` stays where
    there is none and the path is relative. -/
def popName (rooted : Bool) : List (List Char) → List (List Char)
  | [] => if rooted then [] else [dotdot]
  | top :: rest => if top = dotdot then dotdot :: top :: rest else rest

def pushName (rooted : Bool) (stack : List (List Char)) (n : List Char) : List (List Char) :=
  if n = dotdot then popName rooted stack else n :: stack

def resolve (rooted : Bool) (ns : List (List Char)) : List (List Char) := (ns.foldl (pushName rooted) []).reverse

def joinNames : List (List Char) → List Char
  | [] => []
  | [n] => n
  | n :: rest => n ++ '/' :: joinNames rest

/-- The path with these names. -/
def render (rooted : Bool) (ns : List (List Char)) : String :=
  String.ofList (if rooted then '/' :: joinNames ns else if ns = [] then dot else joinNames ns)

/-- The shortest path that names the same file. -/
def clean (path : String) : String := render (isAbs path) (resolve (isAbs path) (names path))

/-- The parts that are not empty joined into one path, and cleaned. -/
def join (parts : List String) : String :=
  match parts.filter (· ≠ "") with
  | [] => ""
  | given => clean ("/".intercalate given)

/-- The path as an absolute one, seen from the directory `cwd`. -/
def absPath (cwd path : String) : String := if isAbs path then clean path else join [cwd,path]

/-- The last component of a path. -/
def base (path : String) : String :=
  if path = "" then "."
  else
    match ((cutAt '/' path.toList).filter (· ≠ [])).getLast? with
    | none => "/"
    | some n => String.ofList n

/-- The end of the last component from its last point on. -/
def ext (path : String) : String :=
  let last := ((cutAt '/' path.toList).getLast?).getD []
  if '.' ∈ last then String.ofList ('.' :: (last.reverse.takeWhile (· ≠ '.')).reverse) else ""

example : clean "/home/./x//../user/" = "/home/user" := by decide
example : join ["","a","b/../.."] = "." := by decide
example : ext "/home/a.b/notes.tar.gz" = ".gz" := by decide

/-! ## Cutting -/

@[simp] theorem cutAt_nil (sep : Char) : cutAt sep [] = [[]] := rfl

theorem cutAt_ne_nil (sep : Char) (cs : List Char) : cutAt sep cs ≠ [] := by
  cases cs with
  | nil => simp
  | cons c rest =>
    simp only [cutAt]
    split_ifs
    · simp
    · split <;> simp

theorem cutAt_same (sep : Char) (rest : List Char) : cutAt sep (sep :: rest) = [] :: cutAt sep rest := by
  simp [cutAt]

theorem cutAt_other {sep c : Char} {rest piece : List Char} {pieces : List (List Char)} (other : c ≠ sep)
    (cut : cutAt sep rest = piece :: pieces) : cutAt sep (c :: rest) = (c :: piece) :: pieces := by
  simp [cutAt,other,cut]

/-- A separator starts a new piece, another character belongs to the first one. -/
theorem cutAt_cons (sep c : Char) (rest : List Char) :
    (c = sep ∧ cutAt sep (c :: rest) = [] :: cutAt sep rest) ∨
      (c ≠ sep ∧ ∃ piece pieces, cutAt sep rest = piece :: pieces ∧ cutAt sep (c :: rest) = (c :: piece) :: pieces) := by
  obtain ⟨piece,pieces,cut⟩ := List.exists_cons_of_ne_nil (cutAt_ne_nil sep rest)
  by_cases same : c = sep
  · exact .inl ⟨same,same ▸ cutAt_same c rest⟩
  · exact .inr ⟨same,piece,pieces,cut,cutAt_other same cut⟩

theorem cutAt_append_sep (sep : Char) (before after : List Char) :
    cutAt sep (before ++ sep :: after) = cutAt sep before ++ cutAt sep after := by
  induction before with
  | nil => exact cutAt_same sep after
  | cons c rest ih =>
    rcases cutAt_cons sep c rest with ⟨rfl,whole⟩ | ⟨other,piece,pieces,cut,whole⟩
    · rw [List.cons_append,cutAt_same,ih,whole,List.cons_append]
    · rw [cut,List.cons_append] at ih
      rw [List.cons_append,cutAt_other other ih,whole,List.cons_append]

theorem cutAt_of_not_mem {sep : Char} {cs : List Char} (absent : sep ∉ cs) : cutAt sep cs = [cs] := by
  induction cs with
  | nil => rfl
  | cons c rest ih =>
    obtain ⟨other,later⟩ : sep ≠ c ∧ sep ∉ rest := by simpa using absent
    exact cutAt_other other.symm (ih later)

theorem cutAt_not_mem (sep : Char) (cs : List Char) : ∀ piece ∈ cutAt sep cs, sep ∉ piece := by
  induction cs with
  | nil => simp
  | cons c rest ih =>
    rcases cutAt_cons sep c rest with ⟨-,whole⟩ | ⟨other,piece,pieces,cut,whole⟩
    · rw [whole]
      exact List.forall_mem_cons.mpr ⟨List.not_mem_nil,ih⟩
    · rw [cut] at ih
      obtain ⟨first,others⟩ := List.forall_mem_cons.mp ih
      rw [whole]
      exact List.forall_mem_cons.mpr ⟨by simp [other.symm,first],others⟩

theorem cutAt_starts {sep : Char} {cs piece : List Char} (first : piece ∈ (cutAt sep cs).head?) : piece <+: cs := by
  induction cs generalizing piece with
  | nil => simp_all
  | cons c rest ih =>
    rcases cutAt_cons sep c rest with ⟨-,whole⟩ | ⟨-,p,pieces,cut,whole⟩
    · have : [] = piece := by simpa [whole] using first
      rw [← this]; exact List.nil_prefix
    · have : c :: p = piece := by simpa [whole] using first
      rw [← this]
      exact (List.prefix_cons_inj c).mpr (ih (by simp [cut]))

theorem cutAt_within {sep : Char} {cs piece : List Char} (member : piece ∈ cutAt sep cs) : piece <:+: cs := by
  induction cs generalizing piece with
  | nil => simp_all
  | cons c rest ih =>
    rcases cutAt_cons sep c rest with ⟨-,whole⟩ | ⟨-,p,pieces,cut,whole⟩
    · have : piece = [] ∨ piece ∈ cutAt sep rest := by simpa [whole] using member
      rcases this with rfl | later
      · exact List.nil_infix
      · exact (ih later).trans (List.suffix_cons c rest).isInfix
    · have : piece = c :: p ∨ piece ∈ pieces := by simpa [whole] using member
      rcases this with rfl | later
      · exact (@cutAt_starts sep _ _ (by simp [whole])).isInfix
      · exact (ih (by simp [cut,later])).trans (List.suffix_cons c rest).isInfix

theorem cutAt_single {sep : Char} {cs piece : List Char} (single : cutAt sep cs = [piece]) : piece = cs := by
  induction cs generalizing piece with
  | nil => simpa [eq_comm] using single
  | cons c rest ih =>
    rcases cutAt_cons sep c rest with ⟨-,whole⟩ | ⟨-,p,pieces,cut,whole⟩
    · simp [whole,cutAt_ne_nil] at single
    · obtain ⟨rfl,rfl⟩ : c :: p = piece ∧ pieces = [] := by simpa [whole] using single
      rw [ih cut]

/-- The last piece ends the list. -/
theorem cutAt_ends {sep : Char} {cs piece : List Char} (last : (cutAt sep cs).getLast? = some piece) :
    piece <:+ cs := by
  induction cs with
  | nil => simp_all
  | cons c rest ih =>
    rcases cutAt_cons sep c rest with ⟨-,whole⟩ | ⟨-,p,pieces,cut,whole⟩
    · have later : (cutAt sep rest).getLast? = some piece := by
        rwa [whole,List.getLast?_cons_of_ne_nil (cutAt_ne_nil sep rest)] at last
      exact (ih later).trans (List.suffix_cons c rest)
    · cases pieces with
      | nil =>
        have here : c :: p = piece := by simpa [whole] using last
        rw [← here,cutAt_single cut]
      | cons q more =>
        have later : (cutAt sep rest).getLast? = some piece := by simpa [whole,cut] using last
        exact (ih later).trans (List.suffix_cons c rest)

/-- The pieces of two texts put together: the last piece of the first goes on with the
    first piece of the second. -/
theorem cutAt_append {sep : Char} {before after last first : List Char} {pieces rest : List (List Char)}
    (cutBefore : cutAt sep before = pieces ++ [last]) (cutAfter : cutAt sep after = first :: rest) :
    cutAt sep (before ++ after) = pieces ++ (last ++ first) :: rest := by
  induction before generalizing pieces last with
  | nil =>
    obtain ⟨rfl,rfl⟩ : pieces = [] ∧ last = [] := by
      cases pieces with
      | nil => simpa using cutBefore.symm
      | cons piece more => simp at cutBefore
    simpa using cutAfter
  | cons c cs ih =>
    rcases cutAt_cons sep c cs with ⟨rfl,whole⟩ | ⟨here,piece,more,tail,whole⟩
    · rw [whole] at cutBefore
      cases pieces with
      | nil => exact absurd (List.cons.inj cutBefore).2 (cutAt_ne_nil c cs)
      | cons piece more =>
        obtain ⟨rfl,later⟩ := List.cons.inj cutBefore
        rw [List.cons_append,cutAt_same,ih later,List.cons_append]
    · rw [whole] at cutBefore
      cases pieces with
      | nil =>
        obtain ⟨rfl,rfl⟩ : c :: piece = last ∧ more = [] := by simpa using cutBefore
        exact cutAt_other here (@ih piece [] tail)
      | cons head more' =>
        obtain ⟨rfl,rfl⟩ := List.cons.inj cutBefore
        exact cutAt_other here (@ih last (piece :: more') tail)

/-! ## Names -/

theorem names_name (path : String) : ∀ n ∈ names path, Name n := by
  intro n member
  obtain ⟨piece,notEmpty,notDot⟩ : n ∈ cutAt '/' path.toList ∧ n ≠ [] ∧ n ≠ dot := by simpa [names] using member
  exact ⟨notEmpty,notDot,cutAt_not_mem '/' _ n piece⟩

@[simp] theorem names_empty : names "" = [] := by decide

/-- The names of a single name. -/
theorem names_single {n : List Char} (name : Name n) : names (String.ofList n) = [n] := by
  have cut : cutAt '/' n = [n] := cutAt_of_not_mem name.2.2
  rw [names,String.toList_ofList,cut]
  simp [name.1,name.2.1]

/-- The names of a path that is written in two parts. -/
theorem names_slash (before after : String) : names (before ++ "/" ++ after) = names before ++ names after := by
  have text : (before ++ "/" ++ after).toList = before.toList ++ '/' :: after.toList := by simp
  rw [names,text,cutAt_append_sep,List.filter_append]
  rfl

theorem cutAt_joinNames {ns : List (List Char)} (valid : ∀ n ∈ ns, Name n) (some : ns ≠ []) :
    cutAt '/' (joinNames ns) = ns := by
  induction ns with
  | nil => exact absurd rfl some
  | cons n rest ih =>
    have first : cutAt '/' n = [n] := cutAt_of_not_mem (valid n (by simp)).2.2
    cases rest with
    | nil => simpa [joinNames] using first
    | cons m more =>
      rw [joinNames,cutAt_append_sep,first,ih (fun n member => valid n (by simp [member])) (by simp)]
      · rfl
      · simp

theorem filter_names {ns : List (List Char)} (valid : ∀ n ∈ ns, Name n) :
    ns.filter (fun n => n ≠ [] ∧ n ≠ dot) = ns := by
  refine List.filter_eq_self.mpr ?_
  intro n member
  have name := valid n member
  simpa using ⟨name.1,name.2.1⟩

/-- A path has the names it was made of. -/
theorem names_render (rooted : Bool) {ns : List (List Char)} (valid : ∀ n ∈ ns, Name n) :
    names (render rooted ns) = ns := by
  by_cases empty : ns = []
  · subst empty
    cases rooted <;> decide
  · have cut := cutAt_joinNames valid empty
    cases rooted with
    | false => simp only [names,render,Bool.false_eq_true,↓reduceIte,empty,String.toList_ofList,cut,filter_names valid]
    | true =>
      have rootedCut : cutAt '/' ('/' :: joinNames ns) = [] :: ns := by rw [cutAt_same,cut]
      simp only [names,render,↓reduceIte,String.toList_ofList,rootedCut]
      simpa using filter_names valid

theorem isAbs_render (rooted : Bool) {ns : List (List Char)} (valid : ∀ n ∈ ns, Name n) :
    isAbs (render rooted ns) = rooted := by
  cases rooted with
  | true => simp [isAbs,render]
  | false =>
    cases ns with
    | nil => decide
    | cons n rest =>
      obtain ⟨notEmpty,-,noSlash⟩ := valid n (by simp)
      obtain ⟨c,cs,rfl⟩ := List.exists_cons_of_ne_nil notEmpty
      have other : c ≠ '/' := fun same => noSlash (by simp [same])
      have head : (joinNames ((c :: cs) :: rest)).head? = some c := by cases rest <;> rfl
      simp [isAbs,render,head,other]

/-! ## Resolving -/

theorem popName_subset {rooted : Bool} {stack : List (List Char)} {m : List Char}
    (member : m ∈ popName rooted stack) : m ∈ stack ∨ m = dotdot := by
  cases stack with
  | nil => cases rooted <;> simp_all [popName]
  | cons top rest =>
    by_cases kept : top = dotdot
    · have : m = dotdot ∨ m ∈ top :: rest := by simpa [popName,kept] using member
      exact this.symm
    · exact .inl (List.mem_cons_of_mem _ (by simpa [popName,kept] using member))

theorem pushName_subset {rooted : Bool} {stack : List (List Char)} {n m : List Char}
    (member : m ∈ pushName rooted stack n) : m ∈ stack ∨ m = n := by
  unfold pushName at member
  split_ifs at member with up
  · rw [up]; exact popName_subset member
  · exact (List.mem_cons.mp member).symm

theorem popName_rooted {stack : List (List Char)} (none : dotdot ∉ stack) : dotdot ∉ popName true stack := by
  cases stack with
  | nil => simp [popName]
  | cons top rest =>
    obtain ⟨first,others⟩ : dotdot ≠ top ∧ dotdot ∉ rest := by simpa using none
    simpa [popName,Ne.symm first] using others

theorem foldl_pushName_subset {rooted : Bool} {ns stack : List (List Char)} {m : List Char}
    (member : m ∈ ns.foldl (pushName rooted) stack) : m ∈ stack ∨ m ∈ ns := by
  induction ns generalizing stack with
  | nil => exact .inl member
  | cons n rest ih =>
    rcases ih member with pushed | later
    · rcases pushName_subset pushed with old | here
      · exact .inl old
      · right; simp [here]
    · right; simp [later]

/-- Resolving adds no name. -/
theorem resolve_subset {rooted : Bool} {ns : List (List Char)} {m : List Char} (member : m ∈ resolve rooted ns) :
    m ∈ ns := by
  rcases foldl_pushName_subset (List.mem_reverse.mp member) with old | here
  · simp at old
  · exact here

theorem foldl_pushName_of_noUp (rooted : Bool) {ns : List (List Char)} (noUp : dotdot ∉ ns) (stack : List (List Char)) :
    ns.foldl (pushName rooted) stack = ns.reverse ++ stack := by
  induction ns generalizing stack with
  | nil => rfl
  | cons n rest ih =>
    obtain ⟨other,later⟩ : dotdot ≠ n ∧ dotdot ∉ rest := by simpa using noUp
    rw [List.foldl_cons,ih later]
    simp [pushName,Ne.symm other]

/-- Names without `..` are resolved already. -/
theorem resolve_of_noUp (rooted : Bool) {ns : List (List Char)} (noUp : dotdot ∉ ns) : resolve rooted ns = ns := by
  simp [resolve,foldl_pushName_of_noUp rooted noUp]

/-- Names without `..` are resolved to themselves also behind other names. -/
theorem resolve_append (rooted : Bool) (ns : List (List Char)) {ms : List (List Char)} (noUp : dotdot ∉ ms) :
    resolve rooted (ns ++ ms) = resolve rooted ns ++ ms := by
  simp [resolve,foldl_pushName_of_noUp rooted noUp]

/-- Nothing lies above the root. -/
theorem resolve_rooted (ns : List (List Char)) : dotdot ∉ resolve true ns := by
  have step : ∀ (ns stack : List (List Char)), dotdot ∉ stack → dotdot ∉ ns.foldl (pushName true) stack := by
    intro ns
    induction ns with
    | nil => exact fun stack none => none
    | cons n rest ih =>
      intro stack none
      refine ih _ ?_
      unfold pushName
      split_ifs with up
      · exact popName_rooted none
      · simpa [Ne.symm up] using none
  simpa [resolve] using step ns [] (by simp)

/-! ## Clean paths -/

theorem resolve_name (path : String) (rooted : Bool) : ∀ n ∈ resolve rooted (names path), Name n :=
  fun n member => names_name path n (resolve_subset member)

@[simp] theorem names_clean (path : String) : names (clean path) = resolve (isAbs path) (names path) :=
  names_render _ (resolve_name path _)
@[simp] theorem isAbs_clean (path : String) : isAbs (clean path) = isAbs path :=
  isAbs_render _ (resolve_name path _)

/-- The parts of a path joined by slashes. -/
theorem names_intercalate (parts : List String) : names ("/".intercalate parts) = parts.flatMap names := by
  induction parts with
  | nil => decide
  | cons part rest ih =>
    cases rest with
    | nil => simp
    | cons next more =>
      have text : "/".intercalate (part :: next :: more) = part ++ "/" ++ "/".intercalate (next :: more) := by
        simp [String.intercalate_cons_cons]
      rw [text,names_slash,ih]
      rfl

theorem isAbs_append {before : String} (given : before ≠ "") (after : String) : isAbs (before ++ after) = isAbs before := by
  obtain ⟨c,cs,text⟩ : ∃ c cs, before.toList = c :: cs :=
    List.exists_cons_of_ne_nil (fun none => given (String.toList_inj.mp (by simpa using none)))
  simp [isAbs,text]

theorem isAbs_intercalate {part : String} (given : part ≠ "") (rest : List String) :
    isAbs ("/".intercalate (part :: rest)) = isAbs part := by
  cases rest with
  | nil => simp
  | cons next more => rw [String.intercalate_cons_cons,String.append_assoc,isAbs_append given]

theorem flatMap_names_filter (parts : List String) : (parts.filter (· ≠ "")).flatMap names = parts.flatMap names := by
  induction parts with
  | nil => rfl
  | cons part rest ih =>
    by_cases empty : part = ""
    · subst empty; simpa using ih
    · rw [List.filter_cons_of_pos (by simpa using empty),List.flatMap_cons,List.flatMap_cons,ih]

/-- Whether joined parts make an absolute path: whether the first one that is not
    empty is one. -/
def startsAbs (parts : List String) : Bool := ((parts.filter (· ≠ "")).head?.map isAbs).getD false

theorem startsAbs_rooted {part : String} (rooted : isAbs part = true) (rest : List String) : startsAbs (part :: rest) = true := by
  have given : part ≠ "" := by
    rintro rfl
    exact absurd rooted (by decide)
  simp [startsAbs,given,rooted]

theorem join_eq {parts : List String} {part : String} {rest : List String}
    (given : parts.filter (· ≠ "") = part :: rest) : join parts = clean ("/".intercalate (part :: rest)) := by
  rw [join,given]

theorem isAbs_join (parts : List String) : isAbs (join parts) = startsAbs parts := by
  cases given : parts.filter (· ≠ "") with
  | nil => rw [join,startsAbs,given]; decide
  | cons part rest =>
    have first : part ≠ "" := by
      have : part ∈ parts.filter (· ≠ "") := by rw [given]; exact List.mem_cons_self
      simpa using (List.mem_filter.mp this).2
    rw [join_eq given,isAbs_clean,isAbs_intercalate first,startsAbs,given]
    rfl

theorem names_join (parts : List String) : names (join parts) = resolve (startsAbs parts) (parts.flatMap names) := by
  cases given : parts.filter (· ≠ "") with
  | nil =>
    rw [← flatMap_names_filter,join,startsAbs,given]
    decide
  | cons part rest =>
    have absolute : isAbs ("/".intercalate (part :: rest)) = startsAbs parts := by
      rw [← isAbs_join,join_eq given,isAbs_clean]
    rw [join_eq given,names_clean,absolute,names_intercalate,← given,flatMap_names_filter]

/-- Joined parts do not go up where none of them does. -/
theorem noUp_join {parts : List String} (noUp : ∀ part ∈ parts, dotdot ∉ names part) : dotdot ∉ names (join parts) := by
  have whole : dotdot ∉ parts.flatMap names := by simpa using noUp
  rw [names_join,resolve_of_noUp _ whole]
  exact whole

/-! ## Directories -/

/-- An absolute path in its shortest form. -/
structure Absolute (path : String) : Prop where
  rooted : isAbs path = true
  shortest : clean path = path

instance (path : String) : Decidable (Absolute path) :=
  decidable_of_iff (isAbs path = true ∧ clean path = path) ⟨fun h => ⟨h.1,h.2⟩,fun h => ⟨h.rooted,h.shortest⟩⟩

/-- The names of `home` begin the names of `path`. -/
def Below (home path : String) : Prop := names home <+: names path

instance (home path : String) : Decidable (Below home path) := inferInstanceAs (Decidable (_ <+: _))

theorem Absolute.noUp {path : String} (absolute : Absolute path) : dotdot ∉ names path := by
  rw [← absolute.shortest,names_clean,absolute.rooted]
  exact resolve_rooted _

theorem Absolute.ne_empty {path : String} (absolute : Absolute path) : path ≠ "" := by
  rintro rfl
  exact absurd absolute.rooted (by decide)

/-- Names joined to a directory that do not go up again. -/
theorem names_join_home {home : String} (absolute : Absolute home) {rest : List String}
    (noUp : ∀ part ∈ rest, dotdot ∉ names part) : names (join (home :: rest)) = names home ++ rest.flatMap names := by
  rw [names_join,resolve_of_noUp _]
  · rfl
  · simp only [List.flatMap_cons,List.mem_append,List.mem_flatMap,not_or,not_exists,not_and]
    exact ⟨absolute.noUp,noUp⟩

theorem below_join {home : String} (absolute : Absolute home) {rest : List String}
    (noUp : ∀ part ∈ rest, dotdot ∉ names part) : Below home (join (home :: rest)) := by
  rw [Below,names_join_home absolute noUp]
  exact List.prefix_append ..

theorem Absolute.rendered {path : String} (absolute : Absolute path) : render true (names path) = path := by
  have shortest := absolute.shortest
  rwa [clean,absolute.rooted,resolve_of_noUp true absolute.noUp] at shortest

theorem Absolute.eq_root {path : String} (absolute : Absolute path) (none : names path = []) : path = "/" := by
  rw [← absolute.rendered,none]
  decide

/-- Absolute paths with the same names are the same. -/
theorem absolute_ext {path other : String} (absolute : Absolute path) (otherAbsolute : Absolute other)
    (same : names path = names other) : path = other := by
  rw [← absolute.rendered,← otherAbsolute.rendered,same]

/-- Names without `..` make an absolute path in its shortest form. -/
theorem absolute_render {ns : List (List Char)} (valid : ∀ n ∈ ns, Name n) (noUp : dotdot ∉ ns) :
    Absolute (render true ns) := by
  have rooted := isAbs_render true valid
  refine ⟨rooted,?_⟩
  rw [clean,rooted,names_render true valid,resolve_of_noUp true noUp]

theorem absolute_clean {path : String} (rooted : isAbs path = true) : Absolute (clean path) := by
  refine ⟨by rw [isAbs_clean,rooted],?_⟩
  rw [clean,isAbs_clean,names_clean,rooted,resolve_of_noUp true (resolve_rooted _),clean,rooted]

theorem absolute_join {home : String} (absolute : Absolute home) (rest : List String) : Absolute (join (home :: rest)) := by
  have given : (home :: rest).filter (· ≠ "") = home :: rest.filter (· ≠ "") :=
    List.filter_cons_of_pos (by simpa using absolute.ne_empty)
  rw [join_eq given]
  exact absolute_clean (by rw [isAbs_intercalate absolute.ne_empty,absolute.rooted])

theorem joinNames_starts (ns ms : List (List Char)) : joinNames ns <+: joinNames (ns ++ ms) := by
  induction ns with
  | nil => exact List.nil_prefix
  | cons n rest ih =>
    cases rest with
    | nil =>
      cases ms with
      | nil => exact List.prefix_rfl
      | cons m more => exact List.prefix_append n _
    | cons next rest => exact (List.prefix_append_right_inj n).mpr ((List.prefix_cons_inj '/').mpr ih)

theorem joinNames_append {ns ms : List (List Char)} (before : ns ≠ []) (after : ms ≠ []) :
    joinNames (ns ++ ms) = joinNames ns ++ '/' :: joinNames ms := by
  induction ns with
  | nil => exact absurd rfl before
  | cons n rest ih =>
    cases rest with
    | nil =>
      obtain ⟨m,more,rfl⟩ := List.exists_cons_of_ne_nil after
      rfl
    | cons next rest =>
      have later : joinNames (next :: rest ++ ms) = joinNames (next :: rest) ++ '/' :: joinNames ms := ih (by simp)
      calc joinNames (n :: next :: rest ++ ms) = n ++ '/' :: joinNames (next :: rest ++ ms) := rfl
        _ = n ++ '/' :: (joinNames (next :: rest) ++ '/' :: joinNames ms) := by rw [later]
        _ = joinNames (n :: next :: rest) ++ '/' :: joinNames ms := by simp [joinNames]

/-- The characters of an absolute path. -/
theorem Absolute.text {path : String} (absolute : Absolute path) : path.toList = '/' :: joinNames (names path) := by
  rw [← String.toList_ofList (l := '/' :: joinNames (names path))]
  exact congrArg String.toList absolute.rendered.symm

/-- An absolute path is cut into nothing and its names. -/
theorem Absolute.pieces {path : String} (absolute : Absolute path) (some : names path ≠ []) :
    cutAt '/' path.toList = [] :: names path := by
  simp [absolute.text,cutAt_same,cutAt_joinNames (names_name path) some]

/-- What lies below a directory has the directory's path as a prefix. -/
theorem hasPrefix_of_below {home path : String} (absoluteHome : Absolute home) (absolute : Absolute path)
    (below : Below home path) : hasPrefix path home = true := by
  obtain ⟨rest,split⟩ := below
  rw [hasPrefix_iff,← absoluteHome.rendered,← absolute.rendered,← split]
  simpa [render] using (List.prefix_cons_inj '/').mpr (joinNames_starts (names home) rest)

theorem abs_of_absolute {path : String} (rooted : isAbs path = true) (cwd : String) : absPath cwd path = clean path := by
  simp [absPath,rooted]

theorem absPath_of_absolute {path : String} (absolute : Absolute path) (cwd : String) : absPath cwd path = path := by
  rw [abs_of_absolute absolute.rooted,absolute.shortest]

theorem absolute_absPath {cwd : String} (rooted : isAbs cwd = true) (path : String) : Absolute (absPath cwd path) := by
  unfold absPath
  by_cases absolute : isAbs path = true
  · rw [if_pos absolute]
    exact absolute_clean absolute
  · have some : cwd ≠ "" := by rintro rfl; exact absurd rooted (by decide)
    have given : [cwd,path].filter (· ≠ "") = cwd :: [path].filter (· ≠ "") :=
      List.filter_cons_of_pos (by simpa using some)
    rw [if_neg absolute,join_eq given]
    exact absolute_clean (by rw [isAbs_intercalate some,rooted])

/-- One list of names goes beside another one: it is the other one up to its last name,
    and goes on with a longer name. -/
def Beside (ns ms : List (List Char)) : Prop :=
  ∃ dirs last more rest, more ≠ [] ∧ ns = dirs ++ [last] ∧ ms = dirs ++ (last ++ more) :: rest

theorem joinNames_longer (dirs : List (List Char)) (last more : List Char) (rest : List (List Char)) :
    joinNames (dirs ++ [last]) <+: joinNames (dirs ++ (last ++ more) :: rest) := by
  induction dirs with
  | nil =>
    cases rest with
    | nil => exact List.prefix_append last more
    | cons next later =>
      refine ⟨more ++ '/' :: joinNames (next :: later),?_⟩
      simp [joinNames]
  | cons n dirs ih =>
    have step (l : List Char) (ls : List (List Char)) :
        joinNames (n :: (dirs ++ l :: ls)) = n ++ '/' :: joinNames (dirs ++ l :: ls) := by
      cases dirs <;> rfl
    rw [List.cons_append,List.cons_append,step,step]
    exact (List.prefix_append_right_inj n).mpr ((List.prefix_cons_inj '/').mpr ih)

/-- What has a directory's path as a prefix lies in the directory, or beside it. -/
theorem hasPrefix_iff_names {home path : String} (absoluteHome : Absolute home) (absolute : Absolute path) :
    hasPrefix path home = true ↔ Below home path ∨ Beside (names home) (names path) := by
  constructor
  · intro starts
    obtain ⟨tail,text⟩ := hasPrefix_iff.mp starts
    by_cases root : names home = []
    · exact .inl ⟨names path,by rw [root,List.nil_append]⟩
    · obtain ⟨dirs,last,split⟩ : ∃ dirs last, names home = dirs ++ [last] :=
        ⟨_,_,(List.dropLast_append_getLast root).symm⟩
      obtain ⟨first,rest,cutTail⟩ := List.exists_cons_of_ne_nil (cutAt_ne_nil '/' tail)
      have cutHome : cutAt '/' home.toList = ([] :: dirs) ++ [last] := by
        rw [absoluteHome.pieces root,split]
        rfl
      have whole := cutAt_append cutHome cutTail
      rw [text] at whole
      have given : names path ≠ [] := by
        intro none
        rw [← absolute.rendered,none] at whole
        have pieces : cutAt '/' (render true []).toList = [[],[]] := by decide
        rw [pieces] at whole
        obtain ⟨rfl,empty,-⟩ : dirs = [] ∧ last ++ first = [] ∧ rest = [] := by
          cases dirs with
          | nil => simpa using whole.symm
          | cons n dirs => simp at whole
        have name : Name last := names_name home last (by simp [split])
        exact name.1 (List.append_eq_nil_iff.mp empty).1
      rw [absolute.pieces given] at whole
      have namesPath : names path = dirs ++ (last ++ first) :: rest := by simpa using whole
      cases first with
      | nil =>
        refine .inl ⟨rest,?_⟩
        rw [split,namesPath]
        simp
      | cons c cs => exact .inr ⟨dirs,last,c :: cs,rest,by simp,split,namesPath⟩
  · rintro (below | ⟨dirs,last,more,rest,-,split,beside⟩)
    · exact hasPrefix_of_below absoluteHome absolute below
    · rw [hasPrefix_iff,absoluteHome.text,absolute.text,split,beside]
      exact (List.prefix_cons_inj '/').mpr (joinNames_longer dirs last more rest)

/-! ## Going up -/

/-- What is left of resolved names goes up first, and not again. -/
theorem resolve_shape (rooted : Bool) (ns : List (List Char)) :
    ∃ ups downs, resolve rooted ns = List.replicate ups dotdot ++ downs ∧ dotdot ∉ downs := by
  have step : ∀ (ns stack downs : List (List Char)) (ups : Nat), dotdot ∉ downs →
      stack = downs ++ List.replicate ups dotdot → ∃ ups' downs', dotdot ∉ downs' ∧
        ns.foldl (pushName rooted) stack = downs' ++ List.replicate ups' dotdot := by
    intro ns
    induction ns with
    | nil => exact fun stack downs ups none split => ⟨ups,downs,none,split⟩
    | cons n rest ih =>
      rintro stack downs ups none rfl
      rw [List.foldl_cons]
      by_cases up : n = dotdot
      · rw [pushName,if_pos up]
        cases downs with
        | cons top downs =>
          obtain ⟨other,later⟩ : dotdot ≠ top ∧ dotdot ∉ downs := by simpa using none
          exact ih _ downs ups later (by simp [popName,Ne.symm other])
        | nil =>
          cases ups with
          | succ ups => exact ih _ [] (ups+2) none (by simp [popName,List.replicate_succ])
          | zero =>
            cases rooted with
            | true => exact ih _ [] 0 none rfl
            | false => exact ih _ [] 1 none rfl
      · rw [pushName,if_neg up]
        exact ih _ (n :: downs) ups (by simpa [Ne.symm up] using none) rfl
  obtain ⟨ups,downs,none,split⟩ := step ns [] [] 0 (by simp) rfl
  refine ⟨ups,downs.reverse,?_,by simpa using none⟩
  simp [resolve,split]

/-- Behind a directory's names, what goes up drops the last of them. -/
theorem resolve_up {above downs : List (List Char)} (noUp : dotdot ∉ above) (noUpLater : dotdot ∉ downs) (ups : Nat) :
    resolve true (above ++ (List.replicate ups dotdot ++ downs)) = above.rdrop ups ++ downs := by
  have dropped : ∀ (ups : Nat) (stack : List (List Char)), dotdot ∉ stack →
      (List.replicate ups dotdot).foldl (pushName true) stack = stack.drop ups := by
    intro ups
    induction ups with
    | zero => exact fun stack none => rfl
    | succ ups ih =>
      intro stack none
      have popped : popName true stack = stack.tail := by
        cases stack with
        | nil => rfl
        | cons top rest =>
          have other : top ≠ dotdot := fun same => none (by simp [same])
          simp [popName,other]
      rw [List.replicate_succ,List.foldl_cons,pushName,if_pos rfl,popped,ih _ (fun member => none (List.mem_of_mem_tail member)),
        List.drop_tail]
  rw [← List.append_assoc,resolve_append true _ noUpLater,resolve,List.foldl_append,
    foldl_pushName_of_noUp true noUp,List.append_nil,dropped ups _ (by simpa using noUp),List.rdrop_eq_reverse_drop_reverse]

/-- Names that are resolved among themselves first lead to the same directory. -/
theorem resolve_resolve {above : List (List Char)} (noUp : dotdot ∉ above) (ns : List (List Char)) :
    resolve true (above ++ resolve false ns) = resolve true (above ++ ns) := by
  have step : ∀ (ns stack : List (List Char)),
      (ns.foldl (pushName false) stack).reverse.foldl (pushName true) above.reverse =
        ns.foldl (pushName true) (stack.reverse.foldl (pushName true) above.reverse) := by
    intro ns
    induction ns with
    | nil => exact fun stack => rfl
    | cons n rest ih =>
      intro stack
      rw [List.foldl_cons,List.foldl_cons,ih]
      congr 1
      by_cases up : n = dotdot
      · subst up
        cases stack with
        | nil => rfl
        | cons top stack =>
          by_cases climbed : top = dotdot
          · simp [pushName,popName,climbed]
          · have kept : pushName false (top :: stack) dotdot = stack := by simp [pushName,popName,climbed]
            have undone (under : List (List Char)) : pushName true (top :: under) dotdot = under := by
              simp [pushName,popName,climbed]
            rw [kept,List.reverse_cons,List.foldl_append,List.foldl_cons,List.foldl_nil]
            rw [show pushName true _ top = top :: _ from if_neg climbed,undone]
      · simp [pushName,up]
  have both := step ns []
  rw [List.reverse_nil,List.foldl_nil] at both
  rw [resolve,List.foldl_append,foldl_pushName_of_noUp true noUp,List.append_nil,resolve,both,resolve,List.foldl_append,
    foldl_pushName_of_noUp true noUp,List.append_nil]

/-- Resolved names stay as they are. -/
theorem resolve_idem (rooted : Bool) (ns : List (List Char)) : resolve rooted (resolve rooted ns) = resolve rooted ns := by
  cases rooted with
  | true => exact resolve_of_noUp true (resolve_rooted ns)
  | false =>
    obtain ⟨ups,downs,split,noUp⟩ := resolve_shape false ns
    have climbed : resolve false (List.replicate ups dotdot) = List.replicate ups dotdot := by
      have step : ∀ (n m : Nat), (List.replicate n dotdot).foldl (pushName false) (List.replicate m dotdot) =
          List.replicate (m + n) dotdot := by
        intro n
        induction n with
        | zero => exact fun m => rfl
        | succ n ih =>
          intro m
          have up : pushName false (List.replicate m dotdot) dotdot = List.replicate (m + 1) dotdot := by
            cases m <;> simp [pushName,popName,List.replicate_succ]
          rw [List.replicate_succ,List.foldl_cons,up,ih,Nat.add_right_comm,Nat.add_assoc]
      have whole := step ups 0
      rw [List.replicate_zero,Nat.zero_add] at whole
      rw [resolve,whole,List.reverse_replicate]
    rw [split,resolve_append false _ noUp,climbed]

theorem clean_clean (path : String) : clean (clean path) = clean path := by
  rw [clean,isAbs_clean,names_clean,resolve_idem]
  rfl

theorem clean_ne_empty (path : String) : clean path ≠ "" := by
  intro none
  have text := congrArg String.toList none
  rw [clean,render,String.toList_ofList,String.toList_empty] at text
  split_ifs at text with rooted empty
  · cases text
  · obtain ⟨n,rest,resolved⟩ := List.exists_cons_of_ne_nil empty
    have given := (resolve_name path _ n (by rw [resolved]; exact List.mem_cons_self)).1
    rw [resolved] at text
    cases rest with
    | nil => exact given text
    | cons next more => exact given (List.append_eq_nil_iff.mp text).1

/-- Where some part is not empty, the joined parts are a path in its shortest form. -/
theorem clean_join {parts : List String} {part : String} (member : part ∈ parts) (given : part ≠ "") :
    join parts ≠ "" ∧ clean (join parts) = join parts := by
  obtain ⟨first,rest,kept⟩ := List.exists_cons_of_ne_nil
    (List.ne_nil_of_mem (List.mem_filter.mpr ⟨member,by simpa using given⟩ : part ∈ parts.filter (· ≠ "")))
  rw [join_eq kept]
  exact ⟨clean_ne_empty _,clean_clean _⟩

/-- The names of a path in its shortest form. -/
theorem rendered_of_clean {path : String} (shortest : clean path = path) :
    resolve (isAbs path) (names path) = names path ∧ render (isAbs path) (names path) = path := by
  have resolved : resolve (isAbs path) (names path) = names path := by
    have same := names_clean path
    rw [shortest] at same
    exact same.symm
  refine ⟨resolved,?_⟩
  rw [clean,resolved] at shortest
  exact shortest

/-- What is joined to a path that is not empty. -/
theorem join_two {path : String} (given : path ≠ "") (other : String) :
    join [path,other] = render (isAbs path) (resolve (isAbs path) (names path ++ names other)) := by
  have kept : [path,other].filter (· ≠ "") = path :: [other].filter (· ≠ "") := List.filter_cons_of_pos (by simpa using given)
  have same : (path :: [other].filter (· ≠ "")).flatMap names = names path ++ names other := by
    rw [← kept,flatMap_names_filter]
    simp
  rw [join_eq kept,clean,isAbs_intercalate given,names_intercalate,same]

/-! ## Lengths -/

/-- How many characters the names take, each with a separator. -/
def written : List (List Char) → Nat
  | [] => 0
  | n :: ns => n.length + 1 + written ns

theorem written_cutAt (sep : Char) (cs : List Char) : written (cutAt sep cs) = cs.length + 1 := by
  induction cs with
  | nil => rfl
  | cons c rest ih =>
    rcases cutAt_cons sep c rest with ⟨-,whole⟩ | ⟨-,piece,pieces,cut,whole⟩
    · simp only [whole,written,List.length_nil,List.length_cons,ih]
      omega
    · rw [cut,written] at ih
      simp only [whole,written,List.length_cons]
      omega

theorem written_filter (ns : List (List Char)) (keep : List Char → Bool) : written (ns.filter keep) ≤ written ns := by
  induction ns with
  | nil => exact le_rfl
  | cons n ns ih =>
    by_cases kept : keep n = true
    · simpa [kept,written] using ih
    · simpa [kept,written] using Nat.le_add_left_of_le ih

theorem written_append (ns ms : List (List Char)) : written (ns ++ ms) = written ns + written ms := by
  induction ns with
  | nil => simp [written]
  | cons n ns ih => simp only [List.cons_append,written,ih,Nat.add_assoc]

theorem written_reverse (ns : List (List Char)) : written ns.reverse = written ns := by
  induction ns with
  | nil => rfl
  | cons n ns ih => simp only [List.reverse_cons,written_append,ih,written,Nat.add_comm,Nat.zero_add]

theorem written_foldl (ns stack : List (List Char)) :
    written (ns.foldl (pushName true) stack) ≤ written stack + written ns := by
  induction ns generalizing stack with
  | nil => exact Nat.le_add_right ..
  | cons n ns ih =>
    have pushed : written (pushName true stack n) ≤ written stack + (n.length + 1) := by
      unfold pushName
      split_ifs with up
      · subst up
        cases stack with
        | nil => simp [popName,written]
        | cons top rest =>
          simp only [popName]
          split_ifs
          · simp only [written,dotdot,List.length_cons,List.length_nil]
            omega
          · simp only [written,dotdot,List.length_cons,List.length_nil]
            omega
      · simp only [written]
        omega
    have later := ih (pushName true stack n)
    simp only [List.foldl_cons,written]
    omega

/-- What the names take in a path. -/
theorem length_joinNames {ns : List (List Char)} (some : ns ≠ []) : (joinNames ns).length + 1 = written ns := by
  induction ns with
  | nil => exact absurd rfl some
  | cons n ns ih =>
    cases ns with
    | nil => simp [joinNames,written]
    | cons m more =>
      have later := ih (by simp)
      simp only [joinNames,written,List.length_append,List.length_cons] at later ⊢
      omega

/-- Cleaning does not make an absolute path longer. -/
theorem length_clean {path : String} (rooted : isAbs path = true) : (clean path).toList.length ≤ path.toList.length := by
  obtain ⟨rest,text⟩ : ∃ rest, path.toList = '/' :: rest := List.head?_eq_some_iff.mp (by simpa [isAbs] using rooted)
  have named : written (names path) ≤ path.toList.length := by
    have cut : names path = (cutAt '/' rest).filter (fun n => n ≠ [] ∧ n ≠ dot) := by simp [names,text,cutAt_same]
    rw [cut,text,List.length_cons,← written_cutAt '/' rest]
    exact written_filter ..
  have resolved : written (resolve true (names path)) ≤ written (names path) := by
    have folded := written_foldl (names path) []
    rw [resolve,written_reverse]
    simpa [written] using folded
  rw [clean,rooted,render]
  by_cases none : resolve true (names path) = []
  · simp [none,joinNames,text]
  · have length := length_joinNames none
    simp only [↓reduceIte,String.toList_ofList,List.length_cons]
    omega

/-- What begins its own clean form is clean. -/
theorem clean_of_hasPrefix {path : String} (rooted : isAbs path = true) (starts : hasPrefix (clean path) path = true) :
    clean path = path := by
  have same := (hasPrefix_iff.mp starts).eq_of_length_le (length_clean rooted)
  exact (String.toList_inj.mp same).symm

/-! ## Last names -/

theorem base_render (rooted : Bool) {ns : List (List Char)} (valid : ∀ n ∈ ns, Name n) {n : List Char}
    (last : ns.getLast? = some n) : base (render rooted ns) = String.ofList n := by
  have some : ns ≠ [] := by rintro rfl; simp at last
  have notEmpty : ∀ m ∈ ns, m ≠ [] := fun m member => (valid m member).1
  have pieces : (cutAt '/' (render rooted ns).toList).filter (· ≠ []) = ns := by
    cases rooted with
    | true => simpa [render,cutAt_same,cutAt_joinNames valid some] using notEmpty
    | false => simpa [render,some,cutAt_joinNames valid some] using notEmpty
  have given : render rooted ns ≠ "" := by
    intro empty
    rw [empty] at pieces
    exact some (by simpa using pieces.symm)
  rw [base,if_neg given,pieces,last]

/-- The last name of an absolute path is its base. -/
theorem base_of_last {path : String} (absolute : Absolute path) {n : List Char}
    (last : (names path).getLast? = some n) : base path = String.ofList n := by
  rw [← absolute.rendered,base_render true (names_name path) last]

/-- The last name of joined parts is their base. -/
theorem base_join {parts : List String} {n : List Char} (last : (names (join parts)).getLast? = some n) :
    base (join parts) = String.ofList n := by
  cases given : parts.filter (· ≠ "") with
  | nil =>
    have nothing : names "" = [] := by decide
    rw [join,given] at last
    simp [nothing] at last
  | cons part rest =>
    rw [join_eq given] at last ⊢
    rw [names_clean] at last
    exact base_render _ (resolve_name _ _) last

theorem takeWhile_prefix_point {l : List Char} (point : '.' ∈ l) : l.takeWhile (· ≠ '.') ++ ['.'] <+: l := by
  induction l with
  | nil => simp at point
  | cons c rest ih =>
    by_cases here : c = '.'
    · subst here
      exact ⟨rest,by simp⟩
    · have later : '.' ∈ rest := by simpa [Ne.symm here] using point
      simpa [here] using (List.prefix_cons_inj c).mpr (ih later)

/-- The extension of a path ends the path. -/
theorem ext_ends (path : String) : (ext path).toList <:+ path.toList := by
  obtain ⟨n,last⟩ : ∃ n, (cutAt '/' path.toList).getLast? = some n :=
    Option.isSome_iff_exists.mp (List.getLast?_isSome.mpr (cutAt_ne_nil '/' path.toList))
  unfold ext
  rw [last]
  by_cases point : '.' ∈ n
  · have tail : '.' :: (n.reverse.takeWhile (· ≠ '.')).reverse <:+ n := by
      have start := List.reverse_suffix.mpr (@takeWhile_prefix_point n.reverse (by simpa using point))
      simpa using start
    simpa [point] using tail.trans (cutAt_ends last)
  · simp [point]

/-- A text without `..` has no such name. -/
theorem noUp_of_contains {path : String} (absent : contains path ".." = false) : dotdot ∉ names path := by
  intro member
  have piece : dotdot ∈ cutAt '/' path.toList := (List.mem_filter.mp member).1
  have : contains path ".." = true := contains_iff.mpr (cutAt_within piece)
  rw [absent] at this
  cases this

end Zasper.Paths
