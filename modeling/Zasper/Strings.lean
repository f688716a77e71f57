import Mathlib.Data.List.Infix
import Mathlib.Data.String.Basic

/-!
# Text operations

The operations of a string library on text, through its list of characters:
prefixes, suffixes, occurrences, and cutting after a separator.
-/
namespace Zasper.Strings
set_option linter.unusedSimpArgs false

/-- `text` begins with `start`. -/
def hasPrefix (text start : String) : Bool := start.toList.isPrefixOf text.toList
/-- `text` ends with `tail`. -/
def hasSuffix (text tail : String) : Bool := tail.toList.isSuffixOf text.toList
/-- `part` occurs in `text`. -/
def contains (text part : String) : Bool := text.toList.tails.any (fun t => part.toList.isPrefixOf t)

/-- `text` without `tail` at its end, or `text` where it does not end with `tail`. -/
def trimSuffix (text tail : String) : String :=
  if hasSuffix text tail then String.ofList (text.toList.take (text.toList.length - tail.toList.length)) else text

theorem hasPrefix_iff {text start : String} : hasPrefix text start = true ↔ start.toList <+: text.toList :=
  List.isPrefixOf_iff_prefix
theorem hasSuffix_iff {text tail : String} : hasSuffix text tail = true ↔ tail.toList <:+ text.toList :=
  List.isSuffixOf_iff_suffix
theorem contains_iff {text part : String} : contains text part = true ↔ part.toList <:+: text.toList := by
  simp only [contains,List.any_eq_true,List.mem_tails,List.isPrefixOf_iff_prefix]
  constructor
  · rintro ⟨t,suffix,start⟩
    exact start.isInfix.trans suffix.isInfix
  · rintro ⟨before,after,same⟩
    refine ⟨part.toList ++ after,⟨before,by simpa using same⟩,List.prefix_append ..⟩

/-- The pieces of a list that end after each `sep`; what follows the last `sep`
    is the last piece, also where it is empty. -/
def cutAfter (sep : Char) : List Char → List (List Char)
  | [] => [[]]
  | c :: rest =>
    if c = sep then [c] :: cutAfter sep rest
    else
      match cutAfter sep rest with
      | [] => [[c]]
      | piece :: pieces => (c :: piece) :: pieces

theorem cutAfter_ne_nil (sep : Char) (cs : List Char) : cutAfter sep cs ≠ [] := by
  cases cs with
  | nil => simp [cutAfter]
  | cons c rest =>
    simp only [cutAfter]
    split_ifs
    · simp
    · split <;> simp

theorem cutAfter_flatten (sep : Char) (cs : List Char) : (cutAfter sep cs).flatten = cs := by
  induction cs with
  | nil => rfl
  | cons c rest ih =>
    simp only [cutAfter]
    split_ifs
    · simp [ih]
    · split
      · rename_i none; exact absurd none (cutAfter_ne_nil sep rest)
      · rename_i piece pieces cut
        rw [cut] at ih
        simp [← ih]

theorem cutAfter_grow {sep c : Char} (other : c ≠ sep) (cs : List Char) :
    ∃ piece pieces, cutAfter sep cs = piece :: pieces ∧ cutAfter sep (c :: cs) = (c :: piece) :: pieces := by
  cases cut : cutAfter sep cs with
  | nil => exact absurd cut (cutAfter_ne_nil sep cs)
  | cons piece pieces => exact ⟨piece,pieces,rfl,by simp [cutAfter,other,cut]⟩

/-- No separator stands in the last piece. -/
theorem cutAfter_last (sep : Char) (cs : List Char) :
    ∀ last ∈ (cutAfter sep cs).getLast?, sep ∉ last := by
  induction cs with
  | nil => simp [cutAfter]
  | cons c rest ih =>
    by_cases same : c = sep
    · intro last member
      obtain ⟨piece,pieces,cut⟩ := List.exists_cons_of_ne_nil (cutAfter_ne_nil sep rest)
      refine ih last ?_
      simpa [cutAfter,same,cut] using member
    · obtain ⟨piece,pieces,cut,grown⟩ := cutAfter_grow same rest
      rw [grown]
      rw [cut] at ih
      cases pieces with
      | nil => simpa [Ne.symm same] using ih
      | cons next more => simpa using ih

/-- The pieces of `text` that end after each `sep`. -/
def splitAfter (text : String) (sep : Char) : List String := (cutAfter sep text.toList).map String.ofList

theorem splitAfter_ne_nil (text : String) (sep : Char) : splitAfter text sep ≠ [] := by
  simpa [splitAfter] using cutAfter_ne_nil sep text.toList

/-- The pieces joined are the text that was cut. -/
theorem join_splitAfter (text : String) (sep : Char) : String.join (splitAfter text sep) = text := by
  apply String.toList_inj.mp
  have pieces : (splitAfter text sep).flatMap String.toList = (cutAfter sep text.toList).flatten := by
    simp [splitAfter,List.flatMap_map,List.flatMap_id']
  rw [String.toList_join,pieces,cutAfter_flatten]

theorem splitAfter_last (text : String) (sep : Char) :
    ∀ last ∈ (splitAfter text sep).getLast?, sep ∉ last.toList := by
  intro last member
  obtain ⟨piece,here,rfl⟩ : ∃ piece ∈ (cutAfter sep text.toList).getLast?, String.ofList piece = last := by
    simpa [splitAfter] using member
  simpa using cutAfter_last sep text.toList piece here

theorem trimSuffix_of_not_mem {text : String} {c : Char} (absent : c ∉ text.toList) :
    trimSuffix text (String.singleton c) = text := by
  have no : hasSuffix text (String.singleton c) = false := by
    rw [Bool.eq_false_iff]
    intro ends
    exact absent ((hasSuffix_iff.mp ends).subset (by simp))
  simp [trimSuffix,no]

end Zasper.Strings
